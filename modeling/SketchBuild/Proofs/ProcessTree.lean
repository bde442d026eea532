import Mathlib.Data.List.Nodup
import SketchBuild.Proofs.Trace

/-!
# Tearing down a process tree

Any process may be gone at any step. `tearDown_of_some` says what the work on a tree comes to
nevertheless: nothing stops it, and its steps are a function of the table. What they achieve is read
off these steps: nobody of the tree is left.
-/

namespace SketchBuild.ProcessInfo

open SketchBuild.Computation (bind_of_ok bind_of_error tryCatch_of_ok tryCatch_of_error)

/-! ## The steps -/

theorem look_of_some {table : ProcessTable} {pid : Int} {p : ProcessInfo}
    (h : find? table pid = some p) (es : List Event) : look table pid es = .ok p es := by
  rw [look, h]
  rfl

theorem look_of_none {table : ProcessTable} {pid : Int} (h : find? table pid = none)
    (es : List Event) : look table pid es = .error ⟨pid⟩ es := by
  rw [look, h]
  rfl

theorem act_of_reaches {p : ProcessInfo} {a : Action} (h : p.reaches a = true)
    (event : Int → Bool → Event) (es : List Event) :
    p.act a event es = .ok () (es ++ [event p.pid true]) := by
  unfold act
  rw [h]
  rfl

theorem act_of_gone {p : ProcessInfo} {a : Action} (h : p.reaches a = false)
    (event : Int → Bool → Event) (es : List Event) :
    p.act a event es = .error ⟨p.pid⟩ (es ++ [event p.pid false]) := by
  unfold act
  rw [h]
  rfl

/-- An attempt is told, and so is whether the process was there. -/
theorem attempt_apply (p : ProcessInfo) (a : Action) (event : Int → Bool → Event)
    (es : List Event) :
    p.attempt a event es = .ok (p.reaches a) (es ++ [event p.pid (p.reaches a)]) := by
  rw [attempt]
  cases h : p.reaches a with
  | true => exact tryCatch_of_ok (bind_of_ok (act_of_reaches h event es))
  | false => exact tryCatch_of_error (bind_of_error (act_of_gone h event es))

theorem askAll_apply (ps : List ProcessInfo) (es : List Event) :
    askAll ps es = .ok (ps.filter (·.reaches .terminate))
      (es ++ ps.map fun p => .asked p.pid (p.reaches .terminate)) := by
  induction ps generalizing es with
  | nil =>
      rw [List.map_nil, List.append_nil]
      rfl
  | cons p ps ih =>
      rw [askAll, bind_of_ok (attempt_apply p _ _ es), bind_of_ok (ih _), List.append_assoc]
      cases h : p.reaches .terminate <;> simp [h] <;> rfl

theorem killAll_apply (ps : List ProcessInfo) (es : List Event) :
    killAll ps es = .ok () (es ++ ps.map fun p => .killed p.pid (p.reaches .kill)) := by
  induction ps generalizing es with
  | nil =>
      rw [List.map_nil, List.append_nil]
      rfl
  | cons p ps ih =>
      rw [killAll, bind_of_ok (attempt_apply p _ _ es), ih, List.append_assoc]
      rfl

theorem wait_apply (table : ProcessTable) (ps : List ProcessInfo) (seconds : Int)
    (es : List Event) : wait table ps seconds es =
      .ok (table.survivors ps seconds) (es ++ [.waited (ps.map (·.pid)) seconds]) := rfl

/-! ## The tree -/

/-- The descendants that the listing gives: none if it finds the process gone. -/
def descendants (table : ProcessTable) (root : ProcessInfo) : List ProcessInfo :=
  if root.reaches .children then root.children.filterMap (find? table) else []

/-- The processes of the tree as they are asked to end: later descendants first, the root last. -/
def tree (table : ProcessTable) (root : ProcessInfo) : List ProcessInfo :=
  (descendants table root).reverse ++ [root]

/-- The processes of the tree that are there when they are asked to end. -/
def reached (table : ProcessTable) (root : ProcessInfo) : List ProcessInfo :=
  (tree table root).filter (·.reaches .terminate)

/-- Those of them that do not end in the time that they are given. -/
def stubborn (table : ProcessTable) (root : ProcessInfo) (seconds : Int) : List ProcessInfo :=
  table.survivors (reached table root) seconds

/-- Only those that were waited for outlast the wait. -/
theorem stubborn_subset_reached (table : ProcessTable) (root : ProcessInfo) (seconds : Int) :
    stubborn table root seconds ⊆ reached table root := by
  obtain ⟨kept, hkept, hperm⟩ := table.survivors_waited (reached table root) seconds
  exact fun p hp => hkept.mem (hperm.mem_iff.mp hp)

/-- The steps of a teardown. -/
def steps (table : ProcessTable) (root : ProcessInfo) (seconds : Int) : List Event :=
  .listed root.pid (root.reaches .children) ::
    ((tree table root).map (fun p => .asked p.pid (p.reaches .terminate)) ++
      .waited ((reached table root).map (·.pid)) seconds ::
        (stubborn table root seconds).map fun p => .killed p.pid (p.reaches .kill))

/-- A listing that stops leaves no descendants. -/
theorem listDescendants_caught (table : ProcessTable) (root : ProcessInfo) (es : List Event) :
    (tryCatch (listDescendants table root) fun _ => pure []) es =
      .ok (descendants table root) (es ++ [.listed root.pid (root.reaches .children)]) := by
  rw [descendants]
  cases h : root.reaches .children with
  | false => exact tryCatch_of_error (bind_of_error (act_of_gone h _ es))
  | true => exact tryCatch_of_ok (bind_of_ok (act_of_reaches h .listed es))

theorem tearDownFrom_apply (table : ProcessTable) (root : ProcessInfo) (seconds : Int)
    (es : List Event) :
    tearDownFrom table root seconds es =
      .ok (reached table root).length (es ++ steps table root seconds) := by
  rw [tearDownFrom, bind_of_ok (listDescendants_caught table root es),
    bind_of_ok (askAll_apply _ _), bind_of_ok (wait_apply _ _ _ _), bind_of_ok (killAll_apply _ _)]
  simp only [steps, List.append_assoc, List.singleton_append]
  rfl

/-- A process that is absent from the table has nothing to tear down. -/
theorem tearDown_of_none {table : ProcessTable} {pid : Int} (h : find? table pid = none)
    (seconds : Int) (es : List Event) : tearDown table pid seconds es = .ok 0 es := by
  have hfound : (tryCatch (some <$> look table pid) fun _ => pure none) es = .ok none es :=
    tryCatch_of_error (bind_of_error (look_of_none h es))
  rw [tearDown, bind_of_ok hfound]
  rfl

theorem tearDown_of_some {table : ProcessTable} {pid : Int} {root : ProcessInfo}
    (h : find? table pid = some root) (seconds : Int) (es : List Event) :
    tearDown table pid seconds es =
      .ok (reached table root).length (es ++ steps table root seconds) := by
  have hfound : (tryCatch (some <$> look table pid) fun _ => pure none) es = .ok (some root) es :=
    tryCatch_of_ok (bind_of_ok (look_of_some h es))
  rw [tearDown, bind_of_ok hfound]
  exact tearDownFrom_apply table root seconds es

theorem pid_of_find? {table : ProcessTable} {pid : Int} {p : ProcessInfo}
    (h : find? table pid = some p) : p.pid = pid := by
  simpa using List.find?_some h

theorem map_pid_sublist (table : ProcessTable) (pids : List Int) :
    ((pids.filterMap (find? table)).map (·.pid)).Sublist pids := by
  induction pids with
  | nil => exact .slnil
  | cons pid pids ih =>
      cases h : find? table pid with
      | none =>
          rw [List.filterMap_cons_none h]
          exact ih.cons pid
      | some p =>
          rw [List.filterMap_cons_some h, List.map_cons, pid_of_find? h]
          exact ih.cons_cons pid

/-- The descendants are listed in the order of the children, and each is in the table. -/
theorem descendants_listed (table : ProcessTable) (root : ProcessInfo) :
    ((descendants table root).map (·.pid)).Sublist root.children ∧
      ∀ p ∈ descendants table root, find? table p.pid = some p := by
  rw [descendants]
  split
  · refine ⟨map_pid_sublist table root.children, fun p hp => ?_⟩
    obtain ⟨pid, -, hfind⟩ := List.mem_filterMap.mp hp
    rwa [pid_of_find? hfind]
  · simp

/-! ## What a teardown achieves -/

namespace Event

/-- The attempt to ask a process to end, with whether the process was there. -/
def asked? : Event → Option (Int × Bool)
  | .asked pid found => some (pid, found)
  | _ => none

/-- The wait for processes, with its time. -/
def waited? : Event → Option (List Int × Int)
  | .waited pids seconds => some (pids, seconds)
  | _ => none

/-- The attempt to kill a process, with whether the process was there. -/
def killed? : Event → Option (Int × Bool)
  | .killed pid found => some (pid, found)
  | _ => none

/-- The place of a step in the order of a teardown. -/
def phase : Event → Nat
  | .listed _ _ => 0
  | .asked _ _ => 1
  | .waited _ _ => 2
  | .killed _ _ => 3

end Event

/-- A listing as the system gives it: no process twice, and none after one of its descendants. -/
structure Orderly (table : ProcessTable) (root : ProcessInfo) : Prop where
  distinct : (root.pid :: root.children).Nodup
  parentsFirst : (root.pid :: root.children).Pairwise fun earlier later =>
    ∀ p ∈ find? table later, earlier ∉ p.children

instance (table : ProcessTable) (root : ProcessInfo) : Decidable (Orderly table root) :=
  decidable_of_iff _ ⟨fun h => ⟨h.1, h.2⟩, fun h => And.intro h.distinct h.parentsFirst⟩

/-- A teardown of the tree of `root` that takes the steps `events` and gives `count`. -/
structure Ends (table : ProcessTable) (root : ProcessInfo) (seconds : Int) (events : List Event)
    (count : Nat) : Prop where
  /-- All processes of the tree, and no others, are asked to end, in the order of the tree. -/
  asked : events.filterMap Event.asked? =
    (tree table root).map fun p => (p.pid, p.reaches .terminate)
  /-- No process is asked twice. -/
  once : Orderly table root → ((events.filterMap Event.asked?).map (·.1)).Nodup
  /-- A process is asked before those that it descends from. -/
  childrenFirst : Orderly table root → ∀ p ∈ tree table root, ∀ q ∈ tree table root,
    q.pid ∈ p.children → q.pid ≠ p.pid →
      [.asked q.pid (q.reaches .terminate), .asked p.pid (p.reaches .terminate)].Sublist events
  /-- Those that were there are waited for, once and together. -/
  waited : events.filterMap Event.waited? = [((reached table root).map (·.pid), seconds)]
  /-- Those of them that do not end in this time, and no others, are killed. -/
  killed : events.filterMap Event.killed? =
    (stubborn table root seconds).map fun p => (p.pid, p.reaches .kill)
  /-- A process is killed only if it was there and was waited for. -/
  patient : stubborn table root seconds ⊆ reached table root
  /-- No process is killed twice. -/
  killedOnce : Orderly table root → ((events.filterMap Event.killed?).map (·.1)).Nodup
  /-- All are asked before the wait, and killed after it. -/
  ordered : (events.map Event.phase).Pairwise (· ≤ ·)
  /-- The processes that were there when they were asked are counted. -/
  counted : count = (events.filterMap Event.asked?).countP (·.2)
  /-- A process of the tree was gone already, ended in the time it was given, or was killed, unless
  it was gone by then. -/
  nobodyLeft : ∀ p ∈ tree table root,
    .asked p.pid false ∈ events ∨
    (p ∉ stubborn table root seconds ∧ ∃ pids, .waited pids seconds ∈ events ∧ p.pid ∈ pids) ∨
    .killed p.pid true ∈ events ∨ .killed p.pid false ∈ events

theorem pair_sublist {p q : ProcessInfo} {ps : List ProcessInfo} (hp : p ∈ ps) (hq : q ∈ ps)
    (hne : q ≠ p) : [p, q].Sublist ps ∨ [q, p].Sublist ps := by
  obtain ⟨front, back, rfl⟩ := List.append_of_mem hp
  have hq' : q ∈ front ∨ q ∈ back := by simpa [hne] using hq
  rcases hq' with hfront | hback
  · exact .inr ((List.singleton_sublist.mpr hfront).append (.cons_cons p (List.nil_sublist back)))
  · exact .inl ((List.nil_sublist front).append (.cons_cons p (List.singleton_sublist.mpr hback)))

section Orderly

variable {table : ProcessTable} {root : ProcessInfo}

/-- From the root on, no process follows one of its descendants. -/
theorem Orderly.pairwise (h : Orderly table root) :
    (root :: descendants table root).Pairwise fun p q => p.pid ≠ q.pid ∧ p.pid ∉ q.children := by
  obtain ⟨hlisted, hfind⟩ := descendants_listed table root
  have hpids : ((root :: descendants table root).map (·.pid)).Sublist (root.pid :: root.children) :=
    .cons_cons root.pid hlisted
  have hall := List.pairwise_map.mp ((h.distinct.sublist hpids).and (h.parentsFirst.sublist hpids))
  rw [List.pairwise_cons] at hall ⊢
  -- Only the root need not be found in the table, and it comes after nobody.
  exact ⟨fun q hq => (hall.1 q hq).imp_right fun hpar => hpar q (hfind q hq),
    hall.2.imp_of_mem fun _ hq hpq => hpq.imp_right fun hpar => hpar _ (hfind _ hq)⟩

theorem tree_eq_reverse : tree table root = (root :: descendants table root).reverse := by
  rw [tree, List.reverse_cons]

theorem Orderly.nodup (h : Orderly table root) : ((tree table root).map (·.pid)).Nodup := by
  have hpids := List.pairwise_map.mpr (h.pairwise.imp And.left)
  rw [tree_eq_reverse, List.map_reverse]
  exact List.nodup_reverse.mpr hpids

theorem Orderly.nodup_stubborn (h : Orderly table root) (seconds : Int) :
    ((stubborn table root seconds).map (·.pid)).Nodup := by
  obtain ⟨kept, hkept, hperm⟩ := table.survivors_waited (reached table root) seconds
  have htree : kept.Sublist (tree table root) := hkept.trans List.filter_sublist
  exact (hperm.map (·.pid)).nodup_iff.mpr (h.nodup.sublist (htree.map (·.pid)))

/-- In the tree a process comes before those that it descends from. -/
theorem Orderly.sublist (h : Orderly table root) {p q : ProcessInfo} (hp : p ∈ tree table root)
    (hq : q ∈ tree table root) (hchild : q.pid ∈ p.children) (hne : q.pid ≠ p.pid) :
    [q, p].Sublist (tree table root) := by
  rw [tree_eq_reverse] at hp hq ⊢
  rcases pair_sublist (List.mem_reverse.mp hp) (List.mem_reverse.mp hq)
    (fun heq => hne (congrArg pid heq)) with hpq | hqp
  · exact hpq.reverse
  · exact absurd hchild (List.pairwise_iff_forall_sublist.mp h.pairwise hqp).2

end Orderly

section Steps

variable (table : ProcessTable) (root : ProcessInfo) (seconds : Int)

theorem steps_asked : (steps table root seconds).filterMap Event.asked? =
    (tree table root).map fun p => (p.pid, p.reaches .terminate) := by
  simp [steps, List.filterMap_cons, List.filterMap_append, Function.comp_def, Event.asked?]

theorem steps_waited : (steps table root seconds).filterMap Event.waited? =
    [((reached table root).map (·.pid), seconds)] := by
  simp [steps, List.filterMap_cons, List.filterMap_append, Function.comp_def, Event.waited?]

theorem steps_killed : (steps table root seconds).filterMap Event.killed? =
    (stubborn table root seconds).map fun p => (p.pid, p.reaches .kill) := by
  simp [steps, List.filterMap_cons, List.filterMap_append, Function.comp_def, Event.killed?]

theorem steps_ordered : ((steps table root seconds).map Event.phase).Pairwise (· ≤ ·) := by
  have hphases : (steps table root seconds).map Event.phase =
      0 :: (List.replicate (tree table root).length 1 ++
        2 :: List.replicate (stubborn table root seconds).length 3) := by
    simp only [steps, List.map_cons, List.map_append, List.map_map, Function.comp_def, Event.phase,
      List.map_const']
  rw [hphases]
  simp +contextual [List.pairwise_append, List.mem_replicate]

theorem steps_nobodyLeft {p : ProcessInfo} (hp : p ∈ tree table root) :
    .asked p.pid false ∈ steps table root seconds ∨
    (p ∉ stubborn table root seconds ∧
      ∃ pids, .waited pids seconds ∈ steps table root seconds ∧ p.pid ∈ pids) ∨
    .killed p.pid true ∈ steps table root seconds ∨
    .killed p.pid false ∈ steps table root seconds := by
  have hasked : .asked p.pid (p.reaches .terminate) ∈ steps table root seconds :=
    .tail _ (List.mem_append_left _ (List.mem_map_of_mem hp))
  cases hreach : p.reaches .terminate with
  | false => exact .inl (hreach ▸ hasked)
  | true =>
      have hreached : p ∈ reached table root := List.mem_filter.mpr ⟨hp, hreach⟩
      refine .inr ?_
      by_cases hstub : p ∈ stubborn table root seconds
      · have hkilled : .killed p.pid (p.reaches .kill) ∈ steps table root seconds :=
          .tail _ (List.mem_append_right _ (List.mem_cons_of_mem _ (List.mem_map_of_mem hstub)))
        cases hkill : p.reaches .kill with
        | true => exact .inr (.inl (hkill ▸ hkilled))
        | false => exact .inr (.inr (hkill ▸ hkilled))
      · refine .inl ⟨hstub, _, .tail _ (List.mem_append_right _ (.head _)), ?_⟩
        exact List.mem_map_of_mem hreached

theorem ends_steps :
    Ends table root seconds (steps table root seconds) (reached table root).length where
  asked := steps_asked table root seconds
  once h := by
    rw [steps_asked, List.map_map]
    exact h.nodup
  childrenFirst h p hp q hq hchild hne := by
    have hmap := (h.sublist hp hq hchild hne).map fun p => Event.asked p.pid (p.reaches .terminate)
    exact (hmap.trans (List.sublist_append_left _ _)).cons _
  waited := steps_waited table root seconds
  killed := steps_killed table root seconds
  patient := stubborn_subset_reached table root seconds
  killedOnce h := by
    rw [steps_killed, List.map_map]
    exact h.nodup_stubborn seconds
  ordered := steps_ordered table root seconds
  counted := by
    rw [steps_asked, List.countP_map, List.countP_eq_length_filter]
    rfl
  nobodyLeft p hp := steps_nobodyLeft table root seconds hp

end Steps

theorem terminate_eq {table : ProcessTable} {pid seconds : Int} {count : Nat} {events : List Event}
    (h : tearDown table pid seconds [] = .ok count events) :
    terminate table pid seconds = (events, count) := by
  rw [terminate, h]

/-- **A teardown leaves nobody.** It always comes to its end, whichever processes are gone at
whichever step. For a process that is absent it does nothing; else it ends the whole tree. -/
theorem teardown_leaves_nobody (table : ProcessTable) (pid seconds : Int) (w : World) :
    ∃ count events w', tearDown table pid seconds [] = .ok count events ∧
      Tool.teardown table pid seconds w = .ok count w' ∧ Tool.Torn events w w' ∧
      (find? table pid = none → count = 0 ∧ events = [] ∧ w' = w) ∧
      ∀ root, find? table pid = some root → Ends table root seconds events count := by
  obtain ⟨w', hrun, htorn⟩ := Tool.teardown_torn table pid seconds w
  cases hfind : find? table pid with
  | none =>
      have hdown := tearDown_of_none hfind seconds []
      have hsame : Tool.teardown table pid seconds w = .ok 0 w := by
        rw [Tool.teardown, terminate_eq hdown]
        rfl
      exact ⟨0, [], w, hdown, hsame, ⟨[], by simp, rfl⟩, by simp, by simp⟩
  | some root =>
      have hdown := tearDown_of_some hfind seconds []
      rw [terminate_eq hdown] at hrun htorn
      refine ⟨_, _, w', hdown, hrun, htorn, by simp, ?_⟩
      rintro root ⟨⟩
      exact ends_steps table _ seconds

/-- A process with a child and a grandchild, which is gone at the first signal, and a second child
that does not end when it is asked to. -/
def sampleTable : ProcessTable :=
  .lasting [⟨1, [2, 3, 4], []⟩, ⟨2, [4], []⟩, ⟨3, [], []⟩, ⟨4, [], [.terminate]⟩] [3, 4]

example : Orderly sampleTable ⟨1, [2, 3, 4], []⟩ ∧
    terminate sampleTable 1 3 = ([.listed 1 true, .asked 4 false, .asked 3 true, .asked 2 true,
      .asked 1 true, .waited [3, 2, 1] 3, .killed 3 true], 3) := by
  decide

end SketchBuild.ProcessInfo
