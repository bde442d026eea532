import SketchBuild.Proofs.Command
import SketchBuild.Proofs.Congruence
import SketchBuild.Proofs.Trace

/-!
# Programs whose wait is interrupted

An interrupt ends whatever runs. An action that `Heeds` interrupts either starts programs none of
which is interrupted, or stops at the first one that is, once its process tree has been torn down.
-/

namespace SketchBuild

namespace Tool

variable {tools : Tools} {before ss ss' : List Start} {s : Start} {q : Run}

/-- Waiting for the program was interrupted, given those that were started before it. -/
def Start.Interrupted (s : Start) (tools : Tools) (before : List Start) (q : Run) : Prop :=
  (s.response tools before).outcome = .ok q ∧ q.ending = .interrupted

/-- Of programs that were started one after the other none was interrupted. -/
def NoneInterrupted (tools : Tools) (before : List Start) : List Start → Prop
  | [] => True
  | s :: ss => (∀ q, ¬ s.Interrupted tools before q) ∧ NoneInterrupted tools (before ++ [s]) ss

theorem noneInterrupted_append :
    NoneInterrupted tools before (ss ++ ss') ↔
      NoneInterrupted tools before ss ∧ NoneInterrupted tools (before ++ ss) ss' := by
  induction ss generalizing before with
  | nil => simp [NoneInterrupted]
  | cons s ss ih => simp [NoneInterrupted, ih, and_assoc]

end Tool

open Tool (Start Run NoneInterrupted TornDown)

/-- Between `w` and `w'` no wait was interrupted. -/
def Undisturbed (w w' : World) : Prop :=
  ∃ ss, Trail w w' ss ∧ NoneInterrupted w.tools w.past ss

/-- Between `w` and `w'` the wait for the last program was interrupted, and its process tree was
torn down. -/
def Disturbed (w w' : World) : Prop :=
  ∃ ss s q, Trail w w' (ss ++ [s]) ∧ NoneInterrupted w.tools w.past ss ∧
    s.Interrupted w.tools (w.past ++ ss) q ∧ TornDown s.invocation q w'.trace

section Disturbance

variable {w w₁ w' : World}

theorem Undisturbed.of_trail (h : Trail w w' []) : Undisturbed w w' := ⟨[], h, trivial⟩

theorem Undisturbed.trans (h : Undisturbed w w₁) (h' : Undisturbed w₁ w') : Undisturbed w w' := by
  obtain ⟨ss, ht, hss⟩ := h
  obtain ⟨ss', ht', hss'⟩ := h'
  rw [ht.tools, ht.past] at hss'
  exact ⟨ss ++ ss', ht.trans ht', Tool.noneInterrupted_append.mpr ⟨hss, hss'⟩⟩

theorem Undisturbed.disturbed (h : Undisturbed w w₁) (h' : Disturbed w₁ w') : Disturbed w w' := by
  obtain ⟨ss, ht, hss⟩ := h
  obtain ⟨ss', s, q, ht', hss', hs, htorn⟩ := h'
  rw [ht.tools, ht.past] at hss' hs
  refine ⟨ss ++ ss', s, q, ?_, Tool.noneInterrupted_append.mpr ⟨hss, hss'⟩, ?_, htorn⟩
  · rw [List.append_assoc]
    exact ht.trans ht'
  · rw [← List.append_assoc]
    exact hs

/-- What happens afterwards, if it starts and ends nothing, makes no difference. -/
theorem Disturbed.extend (h : Disturbed w w₁) (ht : Trail w₁ w' []) (htorn : Tool.Torn [] w₁ w') :
    Disturbed w w' := by
  obtain ⟨ss, s, q, ht₁, hss, hs, before, after, htrace, hsteps⟩ := h
  obtain ⟨es, he, hes⟩ := htorn
  refine ⟨ss, s, q, ht₁.trans_silent ht, hss, hs, before, after ++ es, ?_, ?_⟩
  · rw [he, htrace, List.append_assoc]
    rfl
  · rw [List.filterMap_append, hes, List.append_nil, hsteps]

variable {before after : List Start} {s : Start} {q : Run}

end Disturbance

/-! ## Heeding interrupts -/

section Heeds

variable {ε α β : Type} {e e' : ε} {x : EStateM ε World α}

/-- No wait was interrupted, or the computation stopped with `e` at the first one that was. -/
def Heeded (e : ε) (w : World) : EStateM.Result ε World α → Prop
  | .ok _ w' => Undisturbed w w'
  | .error f w' => Undisturbed w w' ∨ f = e ∧ Disturbed w w'

/-- The computation stops with `e` at the first interrupted wait. -/
def Heeds (e : ε) (x : EStateM ε World α) : Prop := ∀ w, Heeded e w (x w)

theorem Undisturbed.heeded {w w₁ : World} (h : Undisturbed w w₁) {r : EStateM.Result ε World α}
    (hr : Heeded e w₁ r) : Heeded e w r := by
  cases r with
  | ok a w' => exact h.trans hr
  | error f w' => exact hr.imp h.trans (And.imp_right h.disturbed)

theorem Heeds.pure (a : α) : Heeds e (pure a : EStateM ε World α) :=
  fun w => Undisturbed.of_trail (.refl w)

theorem Heeds.throw (f : ε) : Heeds e (throw f : EStateM ε World α) :=
  fun w => Or.inl (.of_trail (.refl w))

theorem Heeds.bind {f : α → EStateM ε World β} (hx : Heeds e x) (hf : ∀ a, Heeds e (f a)) :
    Heeds e (x >>= f) := by
  intro w
  have hrun := hx w
  show Heeded e w (EStateM.bind x f w)
  rw [EStateM.bind]
  cases hr : x w with
  | ok a w₁ =>
      rw [hr] at hrun
      exact hrun.heeded (hf a w₁)
  | error g w₁ =>
      rw [hr] at hrun
      exact hrun

/-- A handler may stop an interrupted computation in its own way, if it starts and ends nothing. -/
theorem Heeds.tryCatch {g : ε → EStateM ε World α} (hx : Heeds e x) (hg : ∀ f, Heeds e' (g f))
    (he : ∀ w, ∃ w', g e w = .error e' w' ∧ Trail w w' [] ∧ Tool.Torn [] w w') :
    Heeds e' (tryCatch x g) := by
  intro w
  have hrun := hx w
  show Heeded e' w (EStateM.tryCatch x g w)
  delta EStateM.tryCatch
  dsimp only
  cases hr : x w with
  | ok a w₁ =>
      rw [hr] at hrun
      exact hrun
  | error f w₁ =>
      rw [hr] at hrun
      show Heeded e' w (g f w₁)
      rcases hrun with h₁ | ⟨rfl, h₁⟩
      · exact h₁.heeded (hg f w₁)
      · obtain ⟨w₂, hstop, ht, htorn⟩ := he w₁
        rw [hstop]
        exact Or.inr ⟨rfl, h₁.extend ht htorn⟩

end Heeds

namespace Action

variable {α : Type} {x : Action α}

theorem Silent.heeds (h : Silent x) (e : Fault) : Heeds e x := by
  intro w
  have ht := h w
  cases hr : x w with
  | ok a w' =>
      rw [after_of_ok hr] at ht
      exact Undisturbed.of_trail ht
  | error f w' =>
      rw [after_of_error hr] at ht
      exact Or.inl (.of_trail ht)

end Action

namespace Tool

open SketchBuild.Action

theorem heeds_run {command : List Text.Str} (hcommand : command ≠ []) (cwd : Option Path)
    (merge : Bool) : Heeds .interrupted (run command cwd merge) := by
  intro w
  cases hwords : Text.Str.words command with
  | error e =>
      obtain ⟨w', hq, hr⟩ := run_of_torn hwords cwd merge w
      rw [hr]
      exact Or.inl (.of_trail hq.trail)
  | ok argv =>
  have hargv : argv ≠ [] := Text.Str.ne_nil_of_words hwords hcommand
  let i : Invocation := { argv, cwd := cwd.map Path.toString, merge }
  -- a program that was refused or has ended was not interrupted
  have hcalm : ∀ {w'}, Ran w i w' →
      (∀ q, (w.response i).outcome = .ok q → q.ending ≠ .interrupted) → Undisturbed w w' :=
    fun hran h => ⟨_, hran.trail, fun q hq => h q hq.1 hq.2, trivial⟩
  rcases run_cases cwd merge w hwords hargv with
    ⟨r, w', hout, hran, hr⟩ | ⟨q, w', hout, hend, hran, hr⟩ |
      ⟨q, code, out, err, w', hout, hend, hran, hr⟩
  · rw [hr]
    refine Or.inl (hcalm hran fun q hq => ?_)
    cases hout.symm.trans hq
  · obtain ⟨w₁, hr', htorn⟩ := run_of_interrupted cwd merge hwords hargv hout hend
    cases hr.symm.trans hr'
    rw [hr]
    refine Or.inr ⟨rfl, [], ⟨i, w.disk⟩, q, hran.trail, trivial, ⟨?_, hend⟩, htorn⟩
    rw [List.append_nil]
    exact hout
  · rw [hr]
    refine hcalm hran fun q' hq hi => ?_
    cases hout.symm.trans hq
    cases hend.symm.trans hi

end Tool

/-- To heed interrupts is kept when actions are put together. -/
theorem congruence_heeds :
    Action.Congruence (fun _ => True) (fun _ => True)
      (fun {α} (x _ : Action α) => Heeds .interrupted x) where
  told _ := trivial
  pure a := .pure a
  throw _ := .throw _
  bind h hfg := h.bind hfg
  tryCatch h hg hi := by
    refine h.tryCatch (fun f => ?_) fun w => ?_
    · obtain ⟨f', hf, -⟩ := hg f trivial
      rw [hf]
      exact .throw f'
    · rw [hi]
      exact ⟨w, rfl, .refl w, [], by simp, rfl⟩
  ask question := (Action.Silent.ask question).heeds _
  change operation := (Action.Silent.change operation).heeds _
  changePartly operation := (Action.Silent.changePartly operation).heeds _
  findSetting setting := (Tool.silent_findSetting setting).heeds _
  log level message := (Action.Shows.log level message).silent.heeds _
  mention := by
    intro c c' _ _ line line' _ _
    split
    · exact (Action.Shows.print line).silent.heeds _
    · exact .pure ()
  run hne _ cwd merge := Tool.heeds_run hne cwd merge

end SketchBuild
