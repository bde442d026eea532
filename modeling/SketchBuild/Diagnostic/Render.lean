import SketchBuild.Diagnostic.Basic
import SketchBuild.Text.Pad

/-!
# Showing diagnostics

A traceback is shown as a banner, for each frame its place and its lines of code, and the kind and
message at the end. The numbers of one frame are aligned on the right, and an arrow marks the line
that the diagnostic points at. Colours only add codes around the texts.
-/

namespace SketchBuild

/-- The codes that switch a terminal's colours. -/
structure Palette where
  red : String
  green : String
  yellow : String
  cyan : String
  dim : String
  reset : String
deriving DecidableEq

/-- The codes of an ANSI terminal. -/
def Palette.ansi : Palette :=
  { red := "\x1b[1;31m", green := "\x1b[1;32m", yellow := "\x1b[1;33m", cyan := "\x1b[1;36m"
    dim := "\x1b[2m", reset := "\x1b[0m" }

/-- No codes. -/
def Palette.plain : Palette := ⟨"", "", "", "", "", ""⟩

/-- The palette for colours switched on or off. -/
def Palette.of (color : Bool) : Palette := if color then .ansi else .plain

/-- The fields of a palette. -/
inductive Palette.Slot
  | red
  | green
  | yellow
  | cyan
  | dim
  | reset
deriving DecidableEq, Repr

/-- Writes a field. -/
def Palette.put (p : Palette) (code : String) : Slot → Palette
  | .red => { p with red := code }
  | .green => { p with green := code }
  | .yellow => { p with yellow := code }
  | .cyan => { p with cyan := code }
  | .dim => { p with dim := code }
  | .reset => { p with reset := code }

/-- The codes that colours are switched on with, field by field. -/
def Palette.codes : List (Slot × String) :=
  [(.red, ansi.red), (.green, ansi.green), (.yellow, ansi.yellow), (.cyan, ansi.cyan),
    (.dim, ansi.dim), (.reset, ansi.reset)]

/-- Switches colours on or off: every field is written over, with its code or with nothing. -/
def Palette.switch (p : Palette) (color : Bool) : Palette :=
  codes.foldl (fun p (slot, code) => p.put (if color then code else "") slot) p

/-- After a switch nothing is left of the palette before. -/
theorem Palette.switch_eq_of (p : Palette) (color : Bool) : p.switch color = .of color := by
  cases color <;> rfl

/-- The colours that there are at first are switched on. -/
theorem Palette.exists_ansi_eq : ∃ color, ansi = .of color := ⟨true, rfl⟩

namespace Diagnostic

/-- The text of a line number; an unknown one is not shown. -/
def numberText (n : Int) : String := if n = 0 then "" else toString n

/-- The width of the numbers of a frame. -/
def numberWidth (code : List CodeLine) : Nat :=
  match (code.filter (·.number ≠ 0)).map fun c => (numberText c.number).length with
  | [] => 1
  | w :: ws => ws.foldl max w

/-- A line of code. Text whose place is unknown is trimmed. -/
def CodeLine.render (p : Palette) (width : Nat) (c : CodeLine) : String :=
  let number := Text.padLeft width (numberText c.number)
  let text := if c.number = 0 then Text.strip c.text else c.text
  if c.pointer then s!"  {p.red}→ {number} │ {text}{p.reset}"
  else s!"    {p.dim}{number} │{p.reset} {text}"

/-- The place of a frame. -/
def Frame.location (p : Palette) (f : Frame) : String :=
  s!"  File \"{p.cyan}{f.file}{p.reset}\"" ++
    (if f.line = 0 then "" else s!", line {f.line}") ++
    (if f.label.isEmpty then "" else s!", in {f.label}")

/-- The place of a frame and its lines of code. -/
def Frame.render (p : Palette) (f : Frame) : List String :=
  f.location p :: f.code.map (·.render p (numberWidth f.code))

/-- The lines that show a traceback. -/
def Traceback.rows (p : Palette) (t : Traceback) : List String :=
  s!"{p.dim}Traceback (most recent call last):{p.reset}" ::
    t.frames.flatMap (·.render p) ++ [s!"{p.red}{t.kind}{p.reset}: {t.message}"]

/-- The text that shows a traceback. -/
def Traceback.render (p : Palette) (t : Traceback) : String := "\n".intercalate (t.rows p)

end Diagnostic

end SketchBuild
