/-!
# Sketch names

The board tool takes only sketch names made of ASCII letters, digits and underscores that do not
start with a digit. Any project name is turned into such a name.
-/

namespace SketchBuild.Sketch

/-- The characters that may stand anywhere in a sketch name. -/
def isNameStart (c : Char) : Bool := c.isAlpha || c == '_'

/-- Reads a project name from left to right; `last` is the character written before, if any. Letters
and underscores are kept, digits too unless they would come first. Any other character gives an
underscore, unless it would come first or follow an underscore. -/
def cleanAfter : (last : Option Char) → List Char → List Char
  | _, [] => []
  | last, c :: cs =>
    if isNameStart c || (c.isDigit && last.isSome) then c :: cleanAfter (some c) cs
    else if !c.isDigit && last.isSome && last != some '_' then '_' :: cleanAfter (some '_') cs
    else cleanAfter last cs

/-- The sketch name nearest to a project name; it may be empty. -/
def cleanName (name : String) : String := String.ofList (cleanAfter none name.toList)

/-- The name for a project whose own name leaves nothing. -/
def defaultName : String := "sketch"

/-- The sketch name of a project. -/
def nameFor (project : String) : String :=
  let name := cleanName project
  if name.isEmpty then defaultName else name

end SketchBuild.Sketch
