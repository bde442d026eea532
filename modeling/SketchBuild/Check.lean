import SketchBuild.Build.Run

/-!
# Checking a project

Every source is checked, whatever became of the ones before it, so that one report lists all
problems.
-/

namespace SketchBuild.Check

/-- The verdicts on all sources, in order. -/
structure Report where
  board : Text.Str
  files : List Translator.Verdict

namespace Report

/-- All warnings. -/
def warnings (r : Report) : List String := r.files.flatMap (·.warnings)

/-- All errors. -/
def errors (r : Report) : List String := r.files.flatMap (·.errors)

/-- Whether every run succeeded and nothing reported an error. -/
def success (r : Report) : Bool := r.files.all (·.success) && r.errors.isEmpty

end Report

/-- Checks sources one after the other. -/
def checkAll (t : Translator) (board : Json) : List Path → Action (List Translator.Verdict)
  | [] => return []
  | source :: rest => do
    let v ← t.check source board
    Action.log .info
      (s!"Checked {source.name}: {v.errors.length} error(s), " ++
        s!"{v.warnings.length} warning(s)")
    return v :: (← checkAll t board rest)

/-- Checks the sources of a project. -/
def run (projectDir : Path) (manifest : Manifest) (settings : Settings) (board : Option String)
    (verbose : Bool) : Action Report := do
  let board := Build.boardOf board manifest settings
  let t := Translator.ofSetting settings.coreBinary (verbose || settings.verbose.truthy)
  if !(← t.isInstalled) then
    throw (.build (.tool (.translatorNotFound t.binary.toStr)))
  let dir := Build.sourceDir projectDir
  let sources ← Action.ask (·.list dir Build.sourceSuffix)
  if sources.isEmpty then throw (.build (.noSources dir.toString))
  return { board := board.toStr, files := ← checkAll t board sources }

end SketchBuild.Check
