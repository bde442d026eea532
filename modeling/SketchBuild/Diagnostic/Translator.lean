import SketchBuild.Diagnostic.Basic
import SketchBuild.Text.Digit
import SketchBuild.Text.Lines
import SketchBuild.Text.Search

/-!
# Diagnostics of the translator

The translator writes a header, then for each place an arrow line and the code around it:

    error[E7]: unknown name
      --> src/lamp.go:3:9
     3 |     led.On()
       |     ^^^ declared nowhere

Each line is classified on its own, and the lines are read one after the other. An arrow line opens
a frame, and the context lines up to the next arrow line belong to it; headers do not close a frame.
-/

namespace SketchBuild.Diagnostic.Translator

open Text (isBlank isDigit trim TooManyDigits)

/-- What a line of output is. -/
inductive Line
  /-- `error…: message`, with `tag` up to the colon. -/
  | header (tag message : List Char)
  /-- `--> location`. -/
  | arrow (location : List Char)
  /-- `number | text`. -/
  | context (number text : List Char)
  | noise
deriving DecidableEq

/-! ### Recognising a line -/

/-- A header: `error`, then characters that are not blank up to the first colon. -/
def header? (cs : List Char) : Option (List Char × List Char) :=
  let word := "error".toList
  if word.isPrefixOf cs then
    let rest := cs.drop word.length
    let inTag := fun c => !isBlank c && c != ':'
    match rest.dropWhile inTag with
    | ':' :: message => some (word ++ rest.takeWhile inTag, trim message)
    | _ => none
  else none

/-- The location after the first arrow, without the dots that may lead it. -/
def arrow? (cs : List Char) : Option (List Char) :=
  (Text.cut? "-->".toList cs).map fun (_, after) => trim ((trim after).dropWhile (· == '·'))

/-- Code with its number: digits, at least one blank, a bar. One blank after the bar is not part of
the code. -/
def context? (cs : List Char) : Option (List Char × List Char) :=
  let numbered := cs.dropWhile isBlank
  let number := numbered.takeWhile isDigit
  match numbered.dropWhile isDigit with
  | gap :: rest =>
    if !number.isEmpty && isBlank gap then
      match rest.dropWhile isBlank with
      | '|' :: ' ' :: code => some (number, code)
      | '|' :: code => some (number, code)
      | _ => none
    else none
  | [] => none

/-- Classifies a line. -/
def Line.read (cs : List Char) : Line :=
  match header? cs with
  | some (tag, message) => .header tag message
  | none =>
    match arrow? cs with
    | some location => .arrow location
    | none =>
      match context? cs with
      | some (number, code) => .context number code
      | none => .noise

/-! ### Locations -/

/-- Cuts off a last field that is a number: the text before its colon and its digits. -/
def numberedTail? (cs : List Char) : Option (List Char × List Char) :=
  let digits := (cs.reverse.takeWhile isDigit).reverse
  match cs.reverse.dropWhile isDigit with
  | ':' :: before =>
    if digits.isEmpty || before.isEmpty then none else some (before.reverse, digits)
  | _ => none

/-- The file and the digits of the line in `file:line` or `file:line:column`, split from the
right. -/
def locationFields (cs : List Char) : List Char × List Char :=
  match numberedTail? cs with
  | none => (cs, [])
  | some (before, last) =>
    match numberedTail? before with
    | none => (before, last)
    | some (file, line) => (file, line)

/-- The file and the line of a location; line 0 if none is given. -/
def splitLocation (cs : List Char) : Except TooManyDigits (List Char × Nat) :=
  let (file, digits) := locationFields cs
  match Text.readDigits digits with
  | .error e => .error e
  | .ok n => .ok (file, n)

/-! ### Reading line by line -/

/-- A line of code in a frame at `line`. -/
def codeLine (line : Int) (number code : List Char) : Except TooManyDigits CodeLine :=
  match Text.readDigits number with
  | .error e => .error e
  | .ok n => .ok ⟨n, String.ofList code, n == line⟩

/-- The frame that an arrow line opens; `origin` stands in for a missing file. -/
def openFrame (origin : Option String) (location : List Char) : Except TooManyDigits Frame :=
  match splitLocation location with
  | .error e => .error e
  | .ok (file, line) =>
    .ok { file := textOr (textOr "" origin) (some (String.ofList file))
          line, label := Stage.translate.label, code := [] }

/-- What was read of the lines so far: the first header's tag and message, the frames that are done
with, and the one that is open. -/
structure Scan where
  header : Option (List Char × List Char) := none
  done : List Frame := []
  current : Option Frame := none

namespace Scan

/-- All frames, of which the open one is the last. -/
def frames (s : Scan) : List Frame := s.done ++ s.current.toList

/-- Reads one more line. Only the first header counts, and code belongs to the open frame. -/
def step (origin : Option String) (s : Scan) : Line → Except TooManyDigits Scan
  | .header tag message => .ok { s with header := s.header.or (some (tag, message)) }
  | .arrow location =>
    match openFrame origin location with
    | .error e => .error e
    | .ok f => .ok { s with done := s.frames, current := some f }
  | .context number code =>
    match s.current with
    | none => .ok s
    | some f =>
      match codeLine f.line number code with
      | .error e => .error e
      | .ok c => .ok { s with current := some { f with code := f.code ++ [c] } }
  | .noise => .ok s

/-- The diagnostic that was read. Without a frame the whole text is the diagnostic. -/
def traceback (origin : Option String) (raw : List Char) (s : Scan) : Traceback :=
  match s.frames with
  | [] => .fallback .translate (textOr "" origin) raw (s.header.map (String.ofList ·.2))
  | f :: fs =>
    { kind := (s.header.map (String.ofList ·.1)).getD Stage.translate.kind
      message := String.ofList ((s.header.map (·.2)).getD (trim raw))
      frames := f :: fs
      frames_ne_nil := List.cons_ne_nil _ _ }

end Scan

/-- The diagnostic in a text. -/
def read (origin : Option String) (raw : List Char) : Except TooManyDigits Traceback :=
  match ((Text.lines raw).map Line.read).foldlM (Scan.step origin) {} with
  | .error e => .error e
  | .ok s => .ok (s.traceback origin raw)

end SketchBuild.Diagnostic.Translator
