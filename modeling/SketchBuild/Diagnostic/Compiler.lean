import SketchBuild.Diagnostic.Basic
import SketchBuild.Text.Digit
import SketchBuild.Text.Letter
import SketchBuild.Text.Lines
import SketchBuild.Text.Search

/-!
# Diagnostics of the compiler

The compiler writes one line for each error, `file:line:column: error: message`. Every such line
becomes a frame; all other lines are passed over.
-/

namespace SketchBuild.Diagnostic.Compiler

open Text (trim)

/-- What stands between a location and its message. -/
def marker : List Char := ": error:".toList

/-- The location and the message of an error line. -/
def errorLine? (cs : List Char) : Option (List Char × List Char) :=
  (Text.cut? marker cs).map fun (location, message) => (trim location, trim message)

/-- Puts a drive letter and the path after it back together. -/
def joinDrive : List (List Char) → List (List Char)
  | [d] :: (c :: path) :: rest =>
    if Text.isLetter d && (c == '\\' || c == '/') then (d :: ':' :: c :: path) :: rest
    else [d] :: (c :: path) :: rest
  | fs => fs

/-- The file and the line of a location. A second field that is no number gives line 0. -/
def splitLocation (cs : List Char) : List Char × Int :=
  match joinDrive (Text.fields (· == ':') cs) with
  | [] => ([], 0)
  | [file] => (file, 0)
  | file :: line :: _ => (file, (Text.readInt? (trim line)).getD 0)

/-- The frame of an error line. -/
def frame (location message : List Char) : Frame :=
  let (file, line) := splitLocation location
  { file := String.ofList file, line, label := Stage.compile.label
    code := [⟨line, String.ofList message, true⟩] }

/-- The error lines of a text. -/
def errorLines (raw : List Char) : List (List Char × List Char) :=
  (Text.lines raw).filterMap errorLine?

/-- The diagnostic in a text. The message is that of the first error line. -/
def read (origin : Option String) (raw : List Char) : Traceback :=
  match errorLines raw with
  | [] =>
    .fallback .compile (textOr "sketch" origin) raw (some Stage.compile.defaultMessage)
  | (location, message) :: rest =>
    { kind := Stage.compile.kind
      message := String.ofList message
      frames := frame location message :: rest.map fun (l, m) => frame l m
      frames_ne_nil := List.cons_ne_nil _ _ }

end SketchBuild.Diagnostic.Compiler
