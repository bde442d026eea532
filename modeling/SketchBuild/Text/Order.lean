/-!
# Texts in order

Names are listed in code point order. The sort inserts one text after the other, so that a listing
can be evaluated.
-/

namespace SketchBuild.Text

/-- Puts a text before the first one that does not come before it. -/
def insertInOrder (s : String) : List String → List String
  | [] => [s]
  | t :: ts => if s ≤ t then s :: t :: ts else t :: insertInOrder s ts

/-- The texts in code point order. -/
def inOrder (ss : List String) : List String := ss.foldr insertInOrder []

end SketchBuild.Text
