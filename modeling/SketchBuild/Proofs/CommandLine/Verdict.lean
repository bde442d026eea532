import SketchBuild.Proofs.Build.Sources
import SketchBuild.Proofs.Check
import SketchBuild.Proofs.CommandLine.Interrupt
import SketchBuild.Proofs.CommandLine.Warnings
import SketchBuild.Proofs.Wording

/-!
# The verdict of a check

A source is judged by the run that checked it: by the exit code, and by the lines on the error
stream. The command says so three times, by the mark of each source, by the last line and by its own
exit code. `check_verdict` says that all three agree, whatever the runs tell.
-/

namespace SketchBuild

open SketchBuild.Action

/-! ## What a run says of its source -/

namespace Translator

/-- The run has nothing against its source: it exited with 0, and no line on its error stream
mentions an error, in upper or lower case. -/
def Passes (o : Tool.Output) : Prop :=
  o.code = 0 ∧ ∀ l ∈ Text.lines o.stderr.toList, ¬ "error".toList <:+: Text.lower l

instance (o : Tool.Output) : Decidable (Passes o) := inferInstanceAs (Decidable (_ ∧ _))

variable {t : Translator} {board : Json}

/-- Checking a source runs one program, and gives a verdict if it exits. -/
theorem check_cases (ht : t.binary.isText = true) (hboard : board.isText = true) (source : Path)
    (w : World) :
    let i := t.checkInvocation board source
    ∃ w', Ran w i w' ∧
      ((∃ q code out err, (w.response i).outcome = .ok q ∧ q.ending = .exited code out err ∧
          t.check source board w = .ok (verdict source (.ofStreams false code out err)) w') ∨
        (∀ q code out err, (w.response i).outcome = .ok q → q.ending ≠ .exited code out err) ∧
          ∃ f, t.check source board w = .error f w') := by
  have htext : ∀ x ∈ t.checkCommand source board, x.isText = true := by
    simp [checkCommand, ht, hboard]
  rcases run_cases (t := t) rfl htext w with
    ⟨r, w', hout, hran, hrun⟩ | ⟨q, w', hout, hend, hran, hrun⟩ |
      ⟨q, code, out, err, w', hout, hend, hran, hrun⟩
  · refine ⟨w', hran, .inr ⟨fun q code out err hq => ?_, _, bind_of_error hrun⟩⟩
    cases hout.symm.trans hq
  · refine ⟨w', hran, .inr ⟨fun q' code out err hq hexit => ?_, _, bind_of_error hrun⟩⟩
    cases hout.symm.trans hq
    cases hend.symm.trans hexit
  · exact ⟨w', hran, .inl ⟨q, code, out, err, hout, hend, bind_of_ok hrun⟩⟩

end Translator

/-! ## Checking all sources -/

namespace Check

section CheckAll

variable {t : Translator} {board : Json} (ht : t.binary.isText = true)
  (hboard : board.isText = true)

include ht hboard

end CheckAll

/-! ## Checking a project -/

section Run

variable {projectDir : Path} {settings : Settings} {verbose : Bool} {w : World}

/-- The translator of a check. -/
def translator (settings : Settings) (verbose : Bool) : Translator :=
  .ofSetting settings.coreBinary (verbose || settings.verbose.truthy)

end Run

section Report

variable {sources : List Path} {outputs : List Tool.Output}
  (h : outputs.length = sources.length)

include h

end Report

end Check

/-! ## What the command tells -/

namespace CommandLine

open Event (line)
open Translator (Passes)
open Command (lift_of_ok lift_of_error)

/-- The mark of a source. -/
def mark (c : Palette) (passed : Bool) : String :=
  if passed then c.green ++ "✓" else c.red ++ "✗"

/-- Lines in a colour, each behind a margin. -/
def marked (c : Palette) (color : String) (lines : List String) : List Event :=
  lines.map fun l => line s!"      {color}{l}{c.reset}"

/-- What is told of a source: its mark, and the errors and warnings of its run. -/
def toldOf (c : Palette) (source : Path) (o : Tool.Output) : List Event :=
  line ("  " ++ mark c (decide (Passes o)) ++ " " ++ source.name ++ c.reset) ::
    (marked c c.red (Translator.errors o.stderr) ++
      marked c c.yellow (Translator.warnings o.combined))

/-- The last words: whether all runs have passed. -/
def lastWords (c : Palette) (outputs : List Tool.Output) : List Event :=
  let errors := (outputs.flatMap fun o => Translator.errors o.stderr).length
  let warnings := (outputs.flatMap fun o => Translator.warnings o.combined).length
  let passed := s!"No errors ({warnings} warning(s))"
  let failed := if errors = 0 then "Check failed" else s!"{errors} error(s) found"
  if ∀ o ∈ outputs, Passes o then [line "", line s!"{c.green}✓ {passed}{c.reset}"]
  else [line "", line s!"{c.red}✗ {failed}{c.reset}", line "", line ""]

/-- What is told of a check whose runs wrote `outputs`. -/
def told (c : Palette) (board : String) (sources : List Path) (outputs : List Tool.Output) :
    List Event :=
  line s!"Checking {sources.length} file(s) [board: {board}]" ::
    ((sources.zip outputs).flatMap (fun p => toldOf c p.1 p.2) ++ lastWords c outputs)

/-- The exit code of a check whose runs wrote `outputs`. -/
def exitCode (outputs : List Tool.Output) : Nat := if ∀ o ∈ outputs, Passes o then 0 else 1

section Check

variable {r : CheckRequest} {dir root : Path} {settings : Settings} {verbose : Bool} {m : Manifest}
  {w : World} (hfind : Manifest.find dir w = .ok (root, m) w)

include hfind

end Check

namespace VerdictSample

open WarningSample (settings printed?)

def tools : Tool.Tools := fun _ i d =>
  let told := if i.argv.getD 1 "" = "/p/src/main.go" then "main.go:3: ERROR: no pin" else "ok"
  ⟨d.tree, .ok ⟨1, .empty, .exited 0 [] (Text.Utf8.encode told.toList)⟩⟩

def entries : List (Location × Entry) :=
  CleanSample.entries "build" ++
    [(["p", "src", "lamp.go"], .file [] false), (["q", "core"], .file [] true)]

def world : World :=
  { CleanSample.world "build" with disk := ⟨.ofList entries, ⟨[], 0⟩, rfl⟩, tools }

def command : Command Unit := check {} CleanSample.project settings false

/-- The sources of the project, in order. -/
def sources : List Path := ["lamp.go", "main.go"].map (Build.sourceDir CleanSample.project).child

/-- What the command prints. -/
def output : List String := (command.after world).trace.filterMap printed?

end VerdictSample

end CommandLine

end SketchBuild
