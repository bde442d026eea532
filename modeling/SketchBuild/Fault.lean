import SketchBuild.Build.Error
import SketchBuild.Manifest.Basic
import SketchBuild.Settings.Basic
import SketchBuild.Text.Utf8
import SketchBuild.Upload.Error

/-!
# Faults

Everything that can stop an action, by its cause. `Fault.message` has the wording, `Fault.name` the
name under which an unexpected fault is shown.
-/

namespace SketchBuild

/-- A value of the wrong kind, put where a text is needed. Only a settings or manifest file that
gives a setting such a value leads here. -/
inductive KindFault
  /-- A word of a command that is to be shown, with its place in the command. -/
  | word (index : Nat) (kind : String)
  /-- The name of a program. -/
  | program (kind : String)
  /-- A directory that is to be joined to a path. -/
  | directory (kind : String)
  /-- A board id. -/
  | board (kind : String)
deriving DecidableEq, Repr

/-- The wording of a value of the wrong kind. -/
def KindFault.message : KindFault → String
  | .word i kind => s!"sequence item {i}: expected str instance, {kind} found"
  | .program kind => s!"expected str, bytes or os.PathLike object, not {kind}"
  | .directory kind => s!"unsupported operand type(s) for /: 'PosixPath' and '{kind}'"
  | .board kind => s!"'{kind}' object has no attribute 'strip'"

/-- The wording of a reason for ill-formed bytes. -/
def Text.Utf8.Reason.message : Text.Utf8.Reason → String
  | .startByte => "invalid start byte"
  | .continuationByte => "invalid continuation byte"
  | .endOfData => "unexpected end of data"

/-- The wording for ill-formed bytes and their place. -/
def Text.Utf8.Invalid.message (e : Text.Utf8.Invalid) : String :=
  let place :=
    if e.size = 1 then
      s!"byte 0x{String.ofList (Text.hex 2 e.first.toNat)} in position {e.position}"
    else s!"bytes in position {e.position}-{e.position + e.size - 1}"
  s!"'utf-8' codec can't decode {place}: {e.reason.message}"

/-- The wording for halves of surrogate pairs that cannot be encoded. -/
def Text.Unencodable.message (e : Text.Unencodable) : String :=
  let place :=
    if e.size = 1 then s!"character '{String.ofList e.first.escape}' in position {e.position}"
    else s!"characters in position {e.position}-{e.position + e.size - 1}"
  s!"'utf-8' codec can't encode {place}: surrogates not allowed"

/-- Why an action stopped. -/
inductive Fault
  | file (e : FileError)
  | build (e : Build.Error)
  | upload (e : Upload.Error)
  | manifest (e : Manifest.Error)
  | settings (e : Settings.Error)
  | sketch (e : Sketch.Error)
  | json (e : Json.SyntaxError)
  | digits (e : Text.TooManyDigits)
  | nesting (e : Json.TooDeep)
  | bytes (e : Text.Utf8.Invalid)
  | pieces (e : Text.Unencodable)
  | kind (e : KindFault)
  | unlistedBoard (id : Json)
  | noFrames
  /-- A command has no words, so it names no program. -/
  | noProgram
  /-- The home directory cannot be told. -/
  | noHome
  | interrupted

namespace Fault

/-- The wording of a fault. -/
def message : Fault → Text.Str
  | .file e => e.message
  | .build e => e.message
  | .upload e => e.message
  | .manifest e => e.message
  | .settings e => e.message
  | .sketch e => e.message
  | .json e => e.message
  | .digits e => e.message
  | .nesting e => e.message
  | .bytes e => e.message
  | .pieces e => e.message
  | .kind e => e.message
  | .unlistedBoard id => s!"Unknown board: {id.quoted}"
  | .noFrames => "Traceback requires at least one frame"
  | .noProgram => "list index out of range"
  | .noHome => "Could not determine home directory."
  | .interrupted => ""

/-- The name of a refusal. -/
def refusalName : Refusal → String
  | .notFound => "FileNotFoundError"
  | .badFormat | .invalid | .nameTooLong | .notEmpty => "OSError"
  | .denied => "PermissionError"
  | .alreadyExists => "FileExistsError"
  | .notDirectory => "NotADirectoryError"
  | .isDirectory => "IsADirectoryError"
  | .nullCharacter => "ValueError"

/-- The name of a build failure. -/
def buildName : Build.Error → String
  | .environment _ _ => "EnvironmentSetupError"
  | .tool _ => "ToolNotFoundError"
  | .noSources _ => "NoSourceFilesError"
  | .clash _ _ | .badSketch _ _ => "BuildOrchestratorError"
  | .translatorFailed _ _ => "TranspileError"
  | .unknownBoard _ => "UnknownBoardError"
  | .compilerFailed _ _ => "CompileError"

/-- The name of a fault. -/
def name : Fault → String
  | .file e => refusalName e.refusal
  | .build e => buildName e
  | .upload _ => "DeploymentError"
  | .manifest _ => "ManifestError"
  | .settings _ => "UserConfigError"
  | .sketch _ => "CompilationUnitError"
  | .json _ => "JSONDecodeError"
  | .digits _ | .noFrames => "ValueError"
  | .nesting _ => "RecursionError"
  | .bytes _ => "UnicodeDecodeError"
  | .pieces _ => "UnicodeEncodeError"
  | .kind (.board _) => "AttributeError"
  | .kind _ => "TypeError"
  | .unlistedBoard _ => "BoardCatalogError"
  | .noProgram => "IndexError"
  | .noHome => "RuntimeError"
  | .interrupted => "KeyboardInterrupt"

end Fault

end SketchBuild
