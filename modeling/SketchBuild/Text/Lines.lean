import SketchBuild.Text.Blank

/-!
# Lines

A text is cut into lines at every line boundary. A carriage return directly before a line feed
belongs to the same boundary. A text that ends in a boundary has no empty line after it, so the
empty text has no line at all.
-/

namespace SketchBuild.Text

/-- The characters that end a line, one by one. -/
def isLineBreak (c : Char) : Bool :=
  let n := c.toNat
  (0x0A ≤ n && n ≤ 0x0D) || (0x1C ≤ n && n ≤ 0x1E) || n == 0x85 || n == 0x2028 || n == 0x2029

/-- The lines of a text, without their ends. -/
def lines : List Char → List (List Char)
  | [] => []
  | '\r' :: '\n' :: cs => [] :: lines cs
  | c :: cs => if isLineBreak c then [] :: lines cs else consField c (lines cs)

/-- Writes every end of line of a stored text file as a line feed. -/
def unifyBreaks : List Char → List Char
  | [] => []
  | '\r' :: '\n' :: cs => '\n' :: unifyBreaks cs
  | c :: cs => (if c = '\r' then '\n' else c) :: unifyBreaks cs

end SketchBuild.Text
