import SketchBuild.Proofs.Tool.Run

/-! # Programs that cannot be started

The system may refuse to start a program. `x.Refused w s r` says that this happened to `s` at some
place of the run of `x`, for the reason `r`. An action that `StopsAtRefusal` ends there, with a
fault that tells of it; `Tool.run` is such an action, and so is whatever is put together from such
actions and those that start nothing. A handler may change the fault. -/

namespace SketchBuild

variable {α β : Type}

namespace Action

open Tool (Start Response)

/-- While `x` ran from `w`, the program `s` was to be started, of which came `r`. -/
def Started (x : Action α) (w : World) (s : Start) (r : Response) : Prop :=
  ∃ before after, (x.after w).past = w.past ++ (before ++ s :: after) ∧
    s.response w.tools (w.past ++ before) = r

/-- The system refused to start it, for the reason `r`. -/
def Refused (x : Action α) (w : World) (s : Start) (r : Refusal) : Prop :=
  ∃ response, x.Started w s response ∧ response.outcome = .error r

/-- A refusal is the end of `x`, with a fault that `F` allows for it. -/
def StopsAtRefusal (F : Start → Refusal → Fault → Prop) (x : Action α) : Prop :=
  ∀ w, (∃ ss, Trail w (x.after w) ss) ∧
    ∀ s r, x.Refused w s r → ∃ f, F s r f ∧ x w = .error f (x.after w)

variable {F G : Start → Refusal → Fault → Prop}

/-- A program that was started is one of all those that were. -/
theorem started_iff {x : Action α} {w : World} {s : Start} {r : Response} {ss : List Start}
    (ht : Trail w (x.after w) ss) :
    x.Started w s r ↔
      ∃ before after, ss = before ++ s :: after ∧ s.response w.tools (w.past ++ before) = r := by
  simp only [Started, ht.past, List.append_cancel_left_eq]

theorem started_congr {x : Action α} {y : Action β} {w : World} (h : x.after w = y.after w)
    {s : Start} {r : Response} : x.Started w s r ↔ y.Started w s r := by
  rw [Started, Started, h]

/-- In a bind, it was started in the first part or in the second. -/
theorem Started.of_bind {x : Action α} {f : α → Action β} {w w₁ : World} {a : α} {s : Start}
    {r : Response} {ss ss' : List Start} (hx : x w = .ok a w₁) (ht : Trail w w₁ ss)
    (ht' : Trail w₁ ((f a).after w₁) ss') (h : (x >>= f).Started w s r) :
    x.Started w s r ∨ (f a).Started w₁ s r := by
  have hafter : (x >>= f).after w = (f a).after w₁ := after_bind_of_ok hx
  obtain ⟨before, after, hsplit, hr⟩ := (started_iff (hafter ▸ ht.trans ht')).mp h
  rcases List.append_eq_append_iff.mp hsplit with ⟨middle, hbefore, hss'⟩ | ⟨middle, hss, hrest⟩
  · -- it comes after all that the first part has started
    refine .inr ((started_iff ht').mpr ⟨middle, after, hss', ?_⟩)
    rw [ht.tools, ht.past, List.append_assoc, ← hbefore]
    exact hr
  · cases middle with
    | nil =>
        refine .inr ((started_iff ht').mpr ⟨[], after, hrest.symm, ?_⟩)
        rw [ht.tools, ht.past, List.append_nil, hss, List.append_nil]
        exact hr
    | cons s' middle =>
        obtain ⟨rfl, rfl⟩ := List.cons.inj hrest
        exact .inl ((started_iff (after_of_ok hx ▸ ht)).mpr ⟨before, middle, hss, hr⟩)

namespace StopsAtRefusal

theorem of_silent {x : Action α} (h : Silent x) : StopsAtRefusal F x := by
  intro w
  refine ⟨⟨[], h w⟩, fun s r ⟨response, hstarted, _⟩ => ?_⟩
  obtain ⟨before, after, hnil, -⟩ := (started_iff (h w)).mp hstarted
  cases before <;> cases hnil

theorem bind {x : Action α} {f : α → Action β} (hx : StopsAtRefusal F x)
    (hf : ∀ a, StopsAtRefusal F (f a)) : StopsAtRefusal F (x >>= f) := by
  intro w
  obtain ⟨⟨ss, ht⟩, hstop⟩ := hx w
  cases hrun : x w with
  | ok a w₁ =>
      rw [after_of_ok hrun] at ht
      obtain ⟨⟨ss', ht'⟩, hstop'⟩ := hf a w₁
      have hafter : (x >>= f).after w = (f a).after w₁ := after_bind_of_ok hrun
      refine ⟨⟨ss ++ ss', hafter ▸ ht.trans ht'⟩, fun s r ⟨response, hstarted, hr⟩ => ?_⟩
      rcases hstarted.of_bind hrun ht ht' with hstarted | hstarted
      · -- the first part went on, so nothing was refused to it
        obtain ⟨g, -, herr⟩ := hstop s r ⟨response, hstarted, hr⟩
        rw [hrun] at herr
        cases herr
      · obtain ⟨g, hg, herr⟩ := hstop' s r ⟨response, hstarted, hr⟩
        refine ⟨g, hg, ?_⟩
        rw [bind_of_ok hrun, herr, hafter]
  | error g w₁ =>
      have hafter : (x >>= f).after w = x.after w := by
        rw [after_bind_of_error hrun, after_of_error hrun]
      refine ⟨⟨ss, hafter ▸ ht⟩, fun s r ⟨response, hstarted, hr⟩ => ?_⟩
      obtain ⟨g', hg', herr⟩ := hstop s r ⟨response, (started_congr hafter).mp hstarted, hr⟩
      exact ⟨g', hg', hafter ▸ bind_of_error herr⟩

/-- Of two branches, one may come down to the other. -/
theorem ite {x y : Action α} (c : Prop) [Decidable c]
    (hx : StopsAtRefusal F y → StopsAtRefusal F x) (hy : StopsAtRefusal F y) :
    StopsAtRefusal F (if c then x else y) := by
  split
  · exact hx hy
  · exact hy

/-- A first part that is done only if a switch is on. -/
theorem ite_bind {x : Action Unit} {f : Unit → Action β} (hx : Silent x) (c : Prop) [Decidable c]
    (hf : StopsAtRefusal F (f ())) : StopsAtRefusal F (if c then x >>= f else f ()) :=
  ite c (fun h => (of_silent hx).bind fun _ => h) hf

/-- A handler that starts nothing may tell of a refusal by another fault. -/
theorem tryCatch {x : Action α} {g : Fault → Action α} (hx : StopsAtRefusal F x)
    (hsilent : ∀ f, Silent (g f))
    (hg : ∀ s r f, F s r f → ∃ f', G s r f' ∧ g f = throw f') :
    StopsAtRefusal G (tryCatch x g) := by
  intro w
  obtain ⟨⟨ss, ht⟩, hstop⟩ := hx w
  cases hrun : x w with
  | ok a w₁ =>
      have hafter : (MonadExcept.tryCatch x g).after w = x.after w := by
        rw [after_of_ok (tryCatch_of_ok hrun), after_of_ok hrun]
      refine ⟨⟨ss, hafter ▸ ht⟩, fun s r ⟨response, hstarted, hr⟩ => ?_⟩
      obtain ⟨f, -, herr⟩ := hstop s r ⟨response, (started_congr hafter).mp hstarted, hr⟩
      rw [hrun] at herr
      cases herr
  | error f w₁ =>
      have hcatch : (MonadExcept.tryCatch x g).after w = (g f).after w₁ :=
        after_congr (tryCatch_of_error hrun)
      have ht' : Trail w ((MonadExcept.tryCatch x g).after w) ss := by
        rw [after_of_error hrun] at ht
        exact hcatch ▸ ht.trans_silent (hsilent f w₁)
      refine ⟨⟨ss, ht'⟩, fun s r ⟨response, hstarted, hr⟩ => ?_⟩
      have hsplit := (started_iff ht').mp hstarted
      obtain ⟨f₁, hf₁, herr⟩ := hstop s r ⟨response, (started_iff ht).mpr hsplit, hr⟩
      rw [hrun] at herr
      cases herr
      obtain ⟨f', hf', hthrow⟩ := hg s r f hf₁
      refine ⟨f', hf', ?_⟩
      rw [tryCatch_of_error hrun, hcatch, hthrow]
      rfl

end StopsAtRefusal

end Action

namespace Tool

open SketchBuild.Action
open Text (Str)

/-- The refusal as the system gives it. -/
def Start.refusalFault (s : Start) (r : Refusal) : Fault :=
  .file ⟨r, .text (s.invocation.argv.headD "")⟩

/-- **Running a program** stops at its refusal, with the fault of the system. -/
theorem stopsAtRefusal_run {command : List Str} (cwd : Option Path) (merge : Bool)
    (hcommand : command ≠ []) :
    StopsAtRefusal (fun s r f => f = s.refusalFault r) (run command cwd merge) := by
  intro w
  cases hwords : Str.words command with
  | error e =>
      -- nothing is started, so nothing is refused
      obtain ⟨w', hq, hr⟩ := run_of_torn hwords cwd merge w
      have ht : Trail w ((run command cwd merge).after w) [] := after_of_error hr ▸ hq.trail
      refine ⟨⟨_, ht⟩, fun s r ⟨response, hstarted, _⟩ => ?_⟩
      obtain ⟨before, after, hnil, -⟩ := (started_iff ht).mp hstarted
      cases before <;> cases hnil
  | ok argv =>
  have hargv : argv ≠ [] := Str.ne_nil_of_words hwords hcommand
  let i : Invocation := { argv, cwd := cwd.map Path.toString, merge }
  obtain ⟨w', hran, hout⟩ : ∃ w', Ran w i w' ∧
      (((∃ r, (w.response i).outcome = .error r ∧
          run command cwd merge w = .error (Start.refusalFault ⟨i, w.disk⟩ r) w') ∨
        (run command cwd merge).after w = w' ∧ ∃ q, (w.response i).outcome = .ok q)) := by
    rcases run_cases cwd merge w hwords hargv with
      ⟨r, w', hout, hran, hr⟩ | ⟨q, w', hout, -, hran, hr⟩ |
        ⟨q, code, out, err, w', hout, -, hran, hr⟩
    · exact ⟨w', hran, .inl ⟨r, hout, hr⟩⟩
    · exact ⟨w', hran, .inr ⟨after_of_error hr, q, hout⟩⟩
    · exact ⟨w', hran, .inr ⟨after_of_ok hr, q, hout⟩⟩
  have hafter : (run command cwd merge).after w = w' := by
    rcases hout with ⟨r, -, hr⟩ | ⟨hafter, -⟩
    · exact after_of_error hr
    · exact hafter
  refine ⟨⟨_, hafter ▸ hran.trail⟩, fun s r ⟨response, hstarted, hres⟩ => ?_⟩
  obtain ⟨before, after, hsplit, rfl⟩ := (started_iff (hafter ▸ hran.trail)).mp hstarted
  -- the one program that was started is the one that was refused
  obtain ⟨rfl, rfl, rfl⟩ : before = [] ∧ s = ⟨i, w.disk⟩ ∧ after = [] := by
    cases before with
    | nil => exact ⟨rfl, (List.cons.inj hsplit).1.symm, (List.cons.inj hsplit).2.symm⟩
    | cons s' before => cases before <;> cases (List.cons.inj hsplit).2
  rw [List.append_nil] at hres
  rcases hout with ⟨r', hr', herr⟩ | ⟨-, q, hq⟩
  · cases hres.symm.trans hr'
    exact ⟨_, rfl, hafter ▸ herr⟩
  · cases hres.symm.trans hq

end Tool

end SketchBuild
