import SketchBuild.Diagnostic.Basic
import SketchBuild.Disk.Basic
import SketchBuild.Sketch.Error
import SketchBuild.Text.Str

/-!
# Results and failures of a build
-/

namespace SketchBuild.Build

open Text (Str)

/-- What a build has made so far. -/
structure Result where
  outputs : List Path
  sketchDir : Path
  board : Str
  firmware : Option Path
  fqbn : Option String
  warnings : List String

/-- How a missing tool was noticed. -/
inductive ToolFault
  /-- The translator is not installed, seen at the start of a build. -/
  | translatorNotInstalled (binary : Str)
  /-- The translator is not installed, or could not be started. -/
  | translatorNotFound (binary : Str)
  /-- The translator does not tell its version. -/
  | translatorSilent (binary : Str) (reason : String)
  /-- The compiler could not be started. -/
  | compilerNotFound (binary : Str)
deriving DecidableEq

/-- Why a build or a check fails. -/
inductive Error
  | environment (sketchDir : Path) (e : FileError)
  | tool (e : ToolFault)
  | noSources (place : String)
  | clash (first second : Path)
  | translatorFailed (source : Path) (t : Diagnostic.Traceback)
  | unknownBoard (board : Str)
  | badSketch (dir : Path) (e : Sketch.Error)
  /-- The compiler failed; inside a build, `result` is what was made before. -/
  | compilerFailed (t : Diagnostic.Traceback) (result : Option Result)

/-- The suffix of source files. -/
def sourceSuffix : String := ".go"

/-- The wording of a missing tool. -/
def ToolFault.message : ToolFault → Str
  | .translatorNotInstalled b => b ++ " not found - install it or set core_binary in config"
  | .translatorNotFound b => b ++ " not found"
  | .translatorSilent b reason => "cannot run " ++ b ++ s!": {reason}"
  | .compilerNotFound b => b ++ " not found"

/-- What helps against a missing board tool. -/
def installHint : String :=
  "install arduino-cli or run: godotino config set arduino_cli /path/to/arduino-cli"

/-- What helps against a missing tool. -/
def ToolFault.hint : ToolFault → Option String
  | .translatorNotInstalled _ | .translatorNotFound _ =>
    some "godotino config set core_binary /path/to/godotino-core"
  | .translatorSilent _ _ => none
  | .compilerNotFound _ => some installHint

/-- The wording of a failure. -/
def Error.message : Error → Str
  | .environment dir e => s!"creating sketch dir {dir}: {e.message}"
  | .tool e => e.message
  | .noSources place => s!"no {sourceSuffix} files found in {place}"
  | .clash first second =>
    s!"{first} and {second} would both translate to {second.stem}.cpp"
  | .translatorFailed source _ => s!"transpilation failed: {source.name}"
  | .unknownBoard board => s!"unknown board {board.quoted}"
  | .badSketch _ e => e.message
  | .compilerFailed _ _ => "arduino-cli compile failed"

/-- What the user can do about a failure. -/
def Error.hint : Error → Option String
  | .tool e => e.hint
  | .clash _ _ => some "rename one of the source files"
  | .unknownBoard _ => some "run 'godotino boards list' to see supported boards"
  | .badSketch dir _ => some s!"remove stray .ino/.cpp files from {dir} and rebuild"
  | .environment _ _ | .noSources _ | .translatorFailed _ _ | .compilerFailed _ _ => none

end SketchBuild.Build
