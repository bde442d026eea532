import SketchBuild.Diagnostic.Normalize
import SketchBuild.Tool.Run

/-!
# The translator

The translator turns one source file into one file of the sketch, or only checks it. It reports on
its error stream: diagnostics if it fails, and otherwise lines that mention a warning.
-/

namespace SketchBuild

/-- The translator: the program that a setting names, and whether its commands are shown. -/
structure Translator where
  binary : Json
  verbose : Bool

namespace Translator

/-- The program to use where none is set. -/
def defaultBinary : Json := .text "godotino-core"

/-- The translator that a setting names. -/
def ofSetting (binary : Json) (verbose : Bool) : Translator :=
  ⟨binary.orElse defaultBinary, verbose⟩

/-! ### Output -/

/-- The lines that mention a word in any case, trimmed. -/
def linesMentioning (word text : String) : List String :=
  ((Text.lines text.toList).filter fun l => Text.contains word.toList (Text.lower l)).map
    fun l => String.ofList (Text.trim l)

/-- The warnings in a text. -/
def warnings (text : String) : List String := linesMentioning "warning" text

/-- The errors in a text. -/
def errors (text : String) : List String := linesMentioning "error" text

/-- What came of translating a source. -/
structure Outcome where
  source : Path
  output : Path
  warnings : List String

/-- What came of checking a source. -/
structure Verdict where
  source : Path
  warnings : List String
  errors : List String
  success : Bool

/-! ### Running -/

/-- Whether the translator is installed. -/
def isInstalled (t : Translator) : Action Bool := do
  return (← Tool.findSetting t.binary).isSome

/-- The command that translates a source. -/
def command (t : Translator) (source output : Path) (board : Json) (sourceMap : Bool) :
    List Json :=
  [t.binary, .text source.toString, .text output.toString, .text "--board", board] ++
    if sourceMap then [.text "--source-map"] else []

/-- The command that checks a source. -/
def checkCommand (t : Translator) (source : Path) (board : Json) : List Json :=
  [t.binary, .text source.toString, .text "--board", board, .text "--check"]

/-- Runs a command of the translator. -/
def run (t : Translator) (command : List Json) : Action Tool.Output := do
  let spelled ← Tool.spell command
  if t.verbose then Action.printStr ("  core  " ++ spelled)
  Action.log .info ("godotino-core: " ++ spelled)
  try
    Tool.run (command.map Json.toStr) none false
  catch
    | .file ⟨.notFound, _⟩ => throw (.build (.tool (.translatorNotFound t.binary.toStr)))
    | f => throw f

/-- Translates a source. -/
def translate (t : Translator) (source output : Path) (board : Json) (sourceMap : Bool) :
    Action Outcome := do
  let o ← t.run (t.command source output board sourceMap)
  if !o.success then
    let traceback ← Action.ofExcept .digits
      (Diagnostic.normalize .translate (some source.toString) o.stderr)
    throw (.build (.translatorFailed source traceback))
  return { source, output, warnings := Translator.warnings o.stderr }

/-- Checks a source without making anything. -/
def check (t : Translator) (source : Path) (board : Json) : Action Verdict := do
  let o ← t.run (t.checkCommand source board)
  return { source, warnings := Translator.warnings o.combined
           errors := Translator.errors o.stderr, success := o.success }

/-- The version that the translator tells. -/
def version (t : Translator) : Action String := do
  let o ← t.run [t.binary, .text "--version"]
  if !o.success then
    throw (.build (.tool (.translatorSilent t.binary.toStr (Text.strip o.stderr))))
  return Text.strip o.stdout

end Translator

end SketchBuild
