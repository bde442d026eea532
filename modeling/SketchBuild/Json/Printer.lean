import SketchBuild.Json.Basic
import SketchBuild.Number.Shortest

/-!
# Writing JSON

Saved settings are written in ASCII, one item or member a line, each level of nesting two blanks
deeper than the one around it. Empty arrays and objects stay on one line.
-/

namespace SketchBuild.Json

open Text (Str hex)

/-- The words for numbers without digits. -/
def fileWords : Number.Binary64.Words := ⟨"NaN", "Infinity"⟩

/-- One character of a string. Beyond ASCII it is written in units of sixteen bits. -/
def writeChar (c : Char) : List Char :=
  let n := c.toNat
  if c = '"' then ['\\', '"']
  else if c = '\\' then ['\\', '\\']
  else if c = '\n' then ['\\', 'n']
  else if c = '\r' then ['\\', 'r']
  else if c = '\t' then ['\\', 't']
  else if n = 0x08 then ['\\', 'b']
  else if n = 0x0C then ['\\', 'f']
  else if 0x20 ≤ n ∧ n < 0x7F then [c]
  else if n < 0x10000 then '\\' :: 'u' :: hex 4 n
  else
    '\\' :: 'u' :: hex 4 (0xD800 + (n - 0x10000) / 0x400) ++
      '\\' :: 'u' :: hex 4 (0xDC00 + (n - 0x10000) % 0x400)

/-- One piece of a string. A half is written as the unit that it is. -/
def writePiece : Text.Piece → List Char
  | .char c => writeChar c
  | .half h => h.escape

/-- A string between its quotes. -/
def writeString : Str → List Char
  | .text s => '"' :: s.toList.flatMap writeChar ++ ['"']
  | .torn ps _ => '"' :: ps.flatMap writePiece ++ ['"']

/-- A new line at a level of nesting. -/
def newLine (level : Nat) : List Char := '\n' :: List.replicate (2 * level) ' '

mutual

/-- A value at a level of nesting. -/
def write (level : Nat) : Json → List Char
  | .null => "null".toList
  | .bool b => if b then "true".toList else "false".toList
  | .int n => (toString n).toList
  | .float x => (x.text fileWords).toList
  | .str s => writeString s
  | .arr [] => ['[', ']']
  | .arr (v :: vs) =>
    '[' :: newLine (level + 1) ++ write (level + 1) v ++ writeItems (level + 1) vs ++
      newLine level ++ [']']
  | .obj [] => ['{', '}']
  | .obj ((name, v) :: ms) =>
    '{' :: newLine (level + 1) ++ writeString name ++ ':' :: ' ' :: write (level + 1) v ++
      writeMembers (level + 1) ms ++ newLine level ++ ['}']

/-- The items after the first, each after a comma and on a line of its own. -/
def writeItems (level : Nat) : List Json → List Char
  | [] => []
  | v :: vs => ',' :: newLine level ++ write level v ++ writeItems level vs

/-- The members after the first, each after a comma and on a line of its own. -/
def writeMembers (level : Nat) : List (Str × Json) → List Char
  | [] => []
  | (name, v) :: ms =>
    ',' :: newLine level ++ writeString name ++ ':' :: ' ' :: write level v ++
      writeMembers level ms

end

end SketchBuild.Json
