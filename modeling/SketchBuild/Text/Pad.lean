/-!
# Columns

Texts are filled up with blanks to a width counted in characters. A longer text stays as it is.
-/

namespace SketchBuild.Text

/-- `n` blanks. -/
def blanks (n : Nat) : String := String.ofList (List.replicate n ' ')

/-- Fills up on the left. -/
def padLeft (width : Nat) (s : String) : String := blanks (width - s.length) ++ s

/-- Fills up on the right. -/
def padRight (width : Nat) (s : String) : String := s ++ blanks (width - s.length)

end SketchBuild.Text
