/-!
# Lower case

Keys, board names and marks in tool output are compared without regard to case. The words they are
compared with are ASCII, so only the characters whose lower case has an ASCII letter matter.
-/

namespace SketchBuild.Text

/-- The lower case of a character, for comparison with ASCII words: `A` to `Z`, the Kelvin sign, and
the dotted capital I, which becomes two characters. The lower case of every other character holds no
ASCII letter, and neither does the character, so it stays as it is. -/
def lowerChar (c : Char) : List Char :=
  if c = '\u212A' then ['k']
  else if c = '\u0130' then ['i', '\u0307']
  else [c.toLower]

/-- `lowerChar` along a text. -/
def lower (cs : List Char) : List Char := cs.flatMap lowerChar

end SketchBuild.Text
