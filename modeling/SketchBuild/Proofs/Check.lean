import SketchBuild.Check
import SketchBuild.Proofs.Build.Calls
import SketchBuild.Proofs.Joined

/-!
# The warnings of a check

A check runs the translator once for each source, in order. Unlike a build it reads both streams of
every run, which come as one text. `Check.run_warnings` says that the report has the warnings of
each stream of each run, as if they had been read one by one.
-/

namespace SketchBuild

open SketchBuild.Action

/-- Programs that were started one after the other all ran to their ends and wrote these outputs. -/
inductive Tool.Wrote (tools : Tools) : List Start → List Start → List Output → Prop
  | nil {past : List Start} : Wrote tools past [] []
  | cons {past : List Start} {s : Start} {q : Run} {code : Int} {out err : List UInt8}
      {ss : List Start} {os : List Output} :
      (s.response tools past).outcome = .ok q → q.ending = .exited code out err →
      Wrote tools (past ++ [s]) ss os →
      Wrote tools past (s :: ss) (.ofStreams s.invocation.merge code out err :: os)

namespace Translator

/-- The program that checks a source. -/
def checkInvocation (t : Translator) (board : Json) (source : Path) : Tool.Invocation where
  argv := [t.binary.display, source.toString, "--board", board.display, "--check"]
  cwd := none
  merge := false

/-- What an output of the translator says of a source. -/
def verdict (source : Path) (o : Tool.Output) : Verdict where
  source := source
  warnings := warnings o.combined
  errors := errors o.stderr
  success := o.success

/-- **Checking a source** that ends with a verdict has run one program to its end. -/
theorem check_eq_ok {t : Translator} {source : Path} {board : Json} {w w' : World} {v : Verdict}
    (h : t.check source board w = .ok v w') :
    ∃ q code out err, (w.response (t.checkInvocation board source)).outcome = .ok q ∧
      q.ending = .exited code out err ∧ Ran w (t.checkInvocation board source) w' ∧
      v = verdict source (.ofStreams false code out err) := by
  obtain ⟨o, w₁, hrun, hpure⟩ := bind_eq_ok_iff.mp h
  have htext : ∀ x ∈ t.checkCommand source board, x.isText = true := by
    by_contra hbad
    push Not at hbad
    obtain ⟨x, hx, hfalse⟩ := hbad
    obtain ⟨f, w₂, herr, -⟩ := t.run_of_not_isText hx (by simpa using hfalse) w
    cases herr.symm.trans hrun
  rcases run_cases (t := t) rfl htext w with
    ⟨r, w₂, -, -, hr⟩ | ⟨q, w₂, -, -, -, hr⟩ | ⟨q, code, out, err, w₂, hout, hend, hran, hr⟩
  · cases hr.symm.trans hrun
  · cases hr.symm.trans hrun
  · cases hr.symm.trans hrun
    cases hpure
    exact ⟨q, code, out, err, hout, hend, hran, rfl⟩

end Translator

namespace Check

/-- **Checking all sources** runs the translator on each of them, whatever became of the ones
before, and keeps the verdicts in order. -/
theorem checkAll_eq_ok {t : Translator} {board : Json} {sources : List Path} {w w' : World}
    {vs : List Translator.Verdict} (h : checkAll t board sources w = .ok vs w') :
    ∃ runs outputs, Trail w w' runs ∧
      runs.map (·.invocation) = sources.map (t.checkInvocation board) ∧
      Tool.Wrote w.tools w.past runs outputs ∧
      vs.map (·.source) = sources ∧
      vs.map (·.warnings) = outputs.map fun o => Translator.warnings o.combined := by
  induction sources generalizing w vs with
  | nil =>
      cases h
      exact ⟨[], [], .refl _, rfl, .nil, rfl, rfl⟩
  | cons source rest ih =>
      obtain ⟨v, w₁, hcheck, hrest⟩ := bind_eq_ok_iff.mp h
      obtain ⟨q, code, out, err, hout, hend, hran, rfl⟩ := Translator.check_eq_ok hcheck
      obtain ⟨w₂, hq₂, hlog⟩ := (Shows.log .info _).bind_apply _ w₁
      obtain ⟨vs', w₃, hall, hpure⟩ := bind_eq_ok_iff.mp (hlog.symm.trans hrest)
      cases hpure
      -- the rest is checked in the world that the first run left
      have ht₂ : Trail w w₂ [⟨t.checkInvocation board source, w.disk⟩] :=
        hran.trail.trans_silent hq₂.trail
      obtain ⟨runs, outputs, htrail, hinv, hwrote, hsources, hwarnings⟩ := ih hall
      rw [ht₂.tools, ht₂.past] at hwrote
      refine ⟨_ :: runs, _ :: outputs, ht₂.trans htrail, ?_, .cons hout hend hwrote, ?_, ?_⟩
      · rw [List.map_cons, List.map_cons, hinv]
      · rw [List.map_cons, hsources]
        rfl
      · rw [List.map_cons, List.map_cons, hwarnings]
        rfl

/-- What must hold for a check to end with a report: the sources are those that the disk lists, and
all of them are checked. -/
theorem run_eq_ok {projectDir : Path} {manifest : Manifest} {settings : Settings}
    {board : Option String} {verbose : Bool} {w w' : World} {report : Report}
    (h : run projectDir manifest settings board verbose w = .ok report w') :
    ∃ sources, w.disk.list (Build.sourceDir projectDir) Build.sourceSuffix = .ok sources ∧
      checkAll (.ofSetting settings.coreBinary (verbose || settings.verbose.truthy))
        (Build.boardOf board manifest settings) sources w = .ok report.files w' := by
  obtain ⟨installed, w₁, hinstalled, h₁⟩ := bind_eq_ok_iff.mp h
  obtain ⟨found, w₂, hfind, hpure⟩ := bind_eq_ok_iff.mp hinstalled
  obtain ⟨rfl, -⟩ := Tool.findSetting_eq_ok hfind
  cases hpure
  split at h₁
  · cases h₁
  · obtain ⟨sources, w₃, hask, h₂⟩ := bind_eq_ok_iff.mp h₁
    obtain ⟨hlist, rfl⟩ := ask_eq_ok_iff.mp hask
    split at h₂
    · cases h₂
    · obtain ⟨files, w₄, hall, hreport⟩ := bind_eq_ok_iff.mp h₂
      cases hreport
      exact ⟨sources, hlist, hall⟩

/-- **No warning of a check is lost.** In the two streams of a program that were put together, the
warnings are those of the first stream and then those of the second. So a report lists, for each
source in order, the warnings of both streams of the run that checked it. -/
theorem run_warnings :
    (∀ o : Tool.Output, Translator.warnings o.combined =
      Translator.warnings o.stdout ++ Translator.warnings o.stderr) ∧
    ∀ (projectDir : Path) (manifest : Manifest) (settings : Settings) (board : Option String)
      (verbose : Bool) (w w' : World) (report : Report),
      run projectDir manifest settings board verbose w = .ok report w' →
      ∃ sources runs outputs,
        w.disk.list (Build.sourceDir projectDir) Build.sourceSuffix = .ok sources ∧
        Trail w w' runs ∧
        runs.map (·.invocation) = sources.map
          ((Translator.ofSetting settings.coreBinary verbose).checkInvocation
            (Build.boardOf board manifest settings)) ∧
        Tool.Wrote w.tools w.past runs outputs ∧
        report.files.map (·.source) = sources ∧
        report.warnings = outputs.flatMap fun o =>
          Translator.warnings o.stdout ++ Translator.warnings o.stderr := by
  refine ⟨Translator.warnings_combined, ?_⟩
  intro projectDir manifest settings board verbose w w' report h
  obtain ⟨sources, hlist, hall⟩ := run_eq_ok h
  obtain ⟨runs, outputs, htrail, hinv, hwrote, hsources, hwarnings⟩ := checkAll_eq_ok hall
  refine ⟨sources, runs, outputs, hlist, htrail, hinv, hwrote, hsources, ?_⟩
  rw [Report.warnings, List.flatMap_def, hwarnings, ← List.flatMap_def]
  simp only [Translator.warnings_combined]

/-! ## A sample

In the project `blink` the translator warns on both streams. The first one ends in the middle of a
line, with blanks and a carriage return. -/

namespace Sample

def tools : Tool.Tools := fun _ i d =>
  let stdout := i.argv.getD 1 "" ++ ": Warning: pin 3 \u2028 \r"
  ⟨d.tree, .ok ⟨1, .empty, .exited 1 (Text.Utf8.encode stdout.toList)
    (Text.Utf8.encode "\n warning: no loop".toList)⟩⟩

def world : World := { Build.Sample.world "" with tools }

def check : Action Report :=
  run Build.Sample.request.projectDir Build.Sample.manifest Build.Sample.settings none false

end Sample

/-- The warnings of both streams are listed, source by source, although every run failed. -/
theorem run_warnings_sample :
    ∃ (report : Report) (runs : List Tool.Start) (outputs : List Tool.Output),
      Sample.check.value? Sample.world = some report ∧ Tool.Wrote Sample.tools [] runs outputs ∧
      report.warnings = outputs.flatMap (fun o =>
        Translator.warnings o.stdout ++ Translator.warnings o.stderr) ∧
      report.warnings =
        ["/p/src/a.go: Warning: pin 3", "warning: no loop", "/p/src/b.go: Warning: pin 3",
          "warning: no loop", "/p/src/c.go: Warning: pin 3", "warning: no loop"] := by
  have heval : (Sample.check.value? Sample.world).map (·.warnings) =
      some ["/p/src/a.go: Warning: pin 3", "warning: no loop", "/p/src/b.go: Warning: pin 3",
        "warning: no loop", "/p/src/c.go: Warning: pin 3", "warning: no loop"] := by
    decide +kernel
  obtain ⟨report, hvalue, hwarnings⟩ := Option.map_eq_some_iff.mp heval
  obtain ⟨sources, runs, outputs, -, -, -, hwrote, -, hboth⟩ :=
    run_warnings.2 _ _ _ _ _ _ _ report (value?_eq_some_iff.mp hvalue)
  exact ⟨report, runs, outputs, hvalue, hwrote, hboth, hwarnings⟩

end Check

end SketchBuild
