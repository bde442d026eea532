import SketchBuild.Text.Blank

/-!
# Diagnostics

What went wrong in an external tool, whichever tool it was, is told by one shape: a traceback of
frames, each with a place in a file and the lines of code around it.
-/

namespace SketchBuild.Diagnostic

/-- The stage of the work that a tool stands for. -/
inductive Stage
  | translate
  | compile
  | upload
deriving DecidableEq, Repr

namespace Stage

/-- The label of a stage's frames. -/
def label : Stage → String
  | .translate => "transpile"
  | .compile => "compile"
  | .upload => "upload"

/-- The kind of a diagnostic in which nothing names its kind. -/
def kind : Stage → String
  | .translate => "TranspileError"
  | .compile => "CompileError"
  | .upload => "FlashError"

/-- The message where the tool said nothing. -/
def defaultMessage : Stage → String
  | .translate => "transpilation failed"
  | .compile => "compilation failed"
  | .upload => "upload failed"

end Stage

/-- One line of code inside a frame. The number 0 stands for an unknown place. -/
structure CodeLine where
  number : Int
  text : String
  pointer : Bool
deriving DecidableEq, Repr

/-- One place that a diagnostic names. -/
structure Frame where
  file : String
  line : Int
  label : String
  code : List CodeLine
deriving DecidableEq, Repr

/-- A diagnostic in the common shape. It names at least one place. -/
structure Traceback where
  kind : String
  message : String
  frames : List Frame
  frames_ne_nil : frames ≠ []
deriving DecidableEq

/-- A text, or the one given for an empty or missing text. -/
def textOr (default : String) : Option String → String
  | none => default
  | some s => if s.isEmpty then default else s

/-- The frame of a diagnostic that names no place: it points at the text itself. -/
def Frame.whole (stage : Stage) (file text : String) : Frame :=
  { file, line := 0, label := stage.label, code := [⟨0, text, true⟩] }

/-- The traceback of a text in which nothing could be recognised. It holds the whole trimmed text;
the message is the given one, or else the text, or else the stage's default. -/
def Traceback.fallback (stage : Stage) (file : String) (raw : List Char)
    (message : Option String) : Traceback :=
  let text := String.ofList (Text.trim raw)
  { kind := stage.kind
    message := textOr (textOr stage.defaultMessage (some text)) message
    frames := [.whole stage file text]
    frames_ne_nil := List.cons_ne_nil _ _ }

end SketchBuild.Diagnostic
