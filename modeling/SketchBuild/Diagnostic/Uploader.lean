import SketchBuild.Diagnostic.Basic
import SketchBuild.Text.Case
import SketchBuild.Text.Lines
import SketchBuild.Text.Search

/-!
# Diagnostics of the uploader

The uploader writes free text. The lines that mention an error or something not found are kept and
joined into one message with one frame, whose file is the serial port.
-/

namespace SketchBuild.Diagnostic.Uploader

/-- Whether a line mentions a failure, in any case. -/
def isRelevant (line : List Char) : Bool :=
  let lowered := Text.lower line
  Text.contains "error".toList lowered || Text.contains "not found".toList lowered

/-- The lines that mention a failure, trimmed. -/
def relevantLines (raw : List Char) : List (List Char) :=
  ((Text.lines raw).map Text.trim).filter isRelevant

/-- The diagnostic in a text. -/
def read (origin : Option String) (raw : List Char) : Traceback :=
  let port := textOr "" origin
  match relevantLines raw with
  | [] => .fallback .upload port raw none
  | ls =>
    let message := "; ".intercalate (ls.map String.ofList)
    { kind := Stage.upload.kind
      message
      frames := [.whole .upload port message]
      frames_ne_nil := List.cons_ne_nil _ _ }

end SketchBuild.Diagnostic.Uploader
