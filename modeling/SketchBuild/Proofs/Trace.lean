import SketchBuild.Proofs.Tool.Run

/-!
# What is added to the trace

The trace only grows. `Grows Q w w'` says that every event added between two worlds satisfies `Q`;
to run a program adds its call, log records and, after an interrupt, the steps of the teardown.
-/

namespace SketchBuild

/-- Between `w` and `w'` events were added to the trace, all of which satisfy `Q`. -/
def Grows (Q : Event → Prop) (w w' : World) : Prop :=
  ∃ es, w'.trace = w.trace ++ es ∧ ∀ e ∈ es, Q e

namespace Event

/-- A log record, or its line on the console. -/
def IsRecord : Event → Prop
  | .logged _ _ | .complained _ => True
  | _ => False

/-- The step of a teardown that an event is. -/
def teardown? : Event → Option ProcessInfo.Event
  | .process e => some e
  | _ => none

theorem IsRecord.teardown? {e : Event} (h : e.IsRecord) : e.teardown? = none := by
  cases e with
  | process e => cases h
  | _ => rfl

end Event

section Grows

variable {Q : Event → Prop} {u v w : World}

theorem Grows.refl (w : World) : Grows Q w w := ⟨[], by simp, by simp⟩

theorem Grows.trans (h : Grows Q u v) (h' : Grows Q v w) : Grows Q u w := by
  obtain ⟨es, he, hes⟩ := h
  obtain ⟨es', he', hes'⟩ := h'
  refine ⟨es ++ es', by rw [he', he, List.append_assoc], fun e hmem => ?_⟩
  rcases List.mem_append.mp hmem with hmem | hmem
  · exact hes e hmem
  · exact hes' e hmem

theorem Grows.of_trace (h : v.trace = u.trace) : Grows Q u v := ⟨[], by simp [h], by simp⟩

theorem Grows.emit {e : Event} (h : Q e) (w : World) : Grows Q w (w.emit e) :=
  ⟨[e], rfl, by simpa using h⟩

theorem Grows.record (h : ∀ e, e.IsRecord → Q e) (level : Level) (message : Text.Str) (w : World) :
    Grows Q w (w.record level message) := by
  unfold World.record
  split
  · exact .emit (h (.logged level message) trivial) w
  · split
    · exact .emit (h (.complained (w.logLine level message)) trivial) w
    · exact .refl w

end Grows

namespace Tool

open SketchBuild.Action

/-- The steps of a teardown, and no others, were added between two worlds. -/
def Torn (steps : List ProcessInfo.Event) (w w' : World) : Prop :=
  ∃ es, w'.trace = w.trace ++ es ∧ es.filterMap Event.teardown? = steps

/-- Records are no steps of a teardown. -/
theorem Torn.of_records {w w' : World} (h : Grows Event.IsRecord w w') : Torn [] w w' := by
  obtain ⟨es, htrace, hes⟩ := h
  exact ⟨es, htrace, List.filterMap_eq_nil_iff.mpr fun e he => (hes e he).teardown?⟩

theorem Torn.trans {u v w : World} {steps steps' : List ProcessInfo.Event} (h : Torn steps u v)
    (h' : Torn steps' v w) : Torn (steps ++ steps') u w := by
  obtain ⟨es, he, hes⟩ := h
  obtain ⟨es', he', hes'⟩ := h'
  exact ⟨es ++ es', by rw [he', he, List.append_assoc], by rw [List.filterMap_append, hes, hes']⟩

theorem noteTeardown_torn (e : ProcessInfo.Event) (w : World) :
    ∃ w', noteTeardown e w = .ok () w' ∧ Torn [e] w w' := by
  have hemit : Torn [e] w (w.emit (.process e)) := ⟨[.process e], rfl, rfl⟩
  have hlog : ∀ message, Torn [] (w.emit (.process e))
      ((w.emit (.process e)).record .warning message) :=
    fun message => .of_records (.record (fun _ h => h) _ _ _)
  unfold noteTeardown
  split
  · exact ⟨_, rfl, hemit.trans (hlog _)⟩
  · exact ⟨_, rfl, hemit⟩

/-- A teardown takes exactly the steps that end the process tree, and counts as they do. -/
theorem teardown_torn (table : ProcessTable) (pid seconds : Int) (w : World) :
    ∃ w', teardown table pid seconds w = .ok (ProcessInfo.terminate table pid seconds).2 w' ∧
      Torn (ProcessInfo.terminate table pid seconds).1 w w' := by
  have hall : ∀ (steps : List ProcessInfo.Event) (w : World),
      ∃ w', steps.forM noteTeardown w = .ok () w' ∧ Torn steps w w' := by
    intro steps
    induction steps with
    | nil => exact fun w => ⟨w, rfl, [], by simp, rfl⟩
    | cons e steps ih =>
        intro w
        obtain ⟨w₁, h₁, ht₁⟩ := noteTeardown_torn e w
        obtain ⟨w₂, h₂, ht₂⟩ := ih w₁
        exact ⟨w₂, (bind_of_ok h₁).trans h₂, ht₁.trans ht₂⟩
  obtain ⟨w', hrun, ht⟩ := hall (ProcessInfo.terminate table pid seconds).1 w
  exact ⟨w', bind_of_ok hrun, ht⟩

/-- After the call of a program its process tree was torn down. -/
def TornDown (i : Invocation) (q : Run) (trace : List Event) : Prop :=
  ∃ before after, trace = before ++ .called i :: after ∧
    after.filterMap Event.teardown? =
      (ProcessInfo.terminate q.processes q.pid ProcessInfo.defaultWait).1

/-- **An interrupted run** ends the process tree of the program before it stops. -/
theorem run_of_interrupted {command : List Text.Str} {argv : List String} (cwd : Option Path)
    (merge : Bool) {w : World} {q : Run} (hwords : Text.Str.words command = .ok argv)
    (hargv : argv ≠ [])
    (hout : (w.response { argv, cwd := cwd.map Path.toString, merge }).outcome = .ok q)
    (hend : q.ending = .interrupted) :
    ∃ w', run command cwd merge w = .error .interrupted w' ∧
      TornDown { argv, cwd := cwd.map Path.toString, merge } q w'.trace := by
  obtain ⟨w₁, hq, hrun⟩ :=
    (Shows.log .debug ("Running: " ++ Text.Str.intercalate " " command)).bind_apply _ w
  rw [run, hrun, hwords, bind_of_ok (rfl : ofExcept Fault.pieces (.ok argv) w₁ = .ok argv w₁)]
  rw [bind_of_ok (start_of_ok hargv (by rw [hq.response, hout])), hend]
  let i : Invocation := { argv, cwd := cwd.map Path.toString, merge }
  let program := argv.headD ""
  let told := (started w₁ i).record .warning
    s!"Interrupted, terminating {program} (pid {q.pid})"
  obtain ⟨w', hdown, htorn⟩ := teardown_torn q.processes q.pid ProcessInfo.defaultWait told
  have hlog : Torn [] (started w₁ i) told := .of_records (.record (fun _ h => h) _ _ _)
  obtain ⟨after, hafter, hsteps⟩ := hlog.trans htorn
  refine ⟨w', ?_, w₁.trace, after, ?_, hsteps⟩
  · show (teardown q.processes q.pid ProcessInfo.defaultWait >>=
      fun _ => (throw .interrupted : Action Output)) told = _
    rw [bind_of_ok hdown]
    rfl
  · rw [hafter]
    show w₁.trace ++ [.called i] ++ after = _
    rw [List.append_assoc]
    rfl

end Tool

end SketchBuild
