import SketchBuild.Json.Basic
import SketchBuild.Number.Shortest

/-!
# Values inside messages

A string inside a message stands as it is, any other value in display form: words for the constants,
shortest decimals, and strings between quotes inside arrays and objects.
-/

namespace SketchBuild.Json

open Text (Str)

/-- The words for numbers without digits. -/
def displayWords : Number.Binary64.Words := ⟨"nan", "inf"⟩

mutual

/-- The display form of a value. -/
def quoted : Json → String
  | .null => "None"
  | .bool b => if b then "True" else "False"
  | .int n => toString n
  | .float x => x.text displayWords
  | .str s => s.quoted
  | .arr items => "[" ++ ", ".intercalate (quotedItems items) ++ "]"
  | .obj members => "\x7b" ++ ", ".intercalate (quotedMembers members) ++ "\x7d"

/-- The display forms of the items of an array. -/
def quotedItems : List Json → List String
  | [] => []
  | v :: vs => quoted v :: quotedItems vs

/-- The display forms of the members of an object. -/
def quotedMembers : List (Str × Json) → List String
  | [] => []
  | (name, v) :: ms => (name.quoted ++ ": " ++ quoted v) :: quotedMembers ms

end

/-- The string that stands for a value: itself, or the display form. -/
def toStr : Json → Str
  | .str s => s
  | v => .text v.quoted

/-- A value as a text, in which the replacement character stands for each half. -/
def display (v : Json) : String := v.toStr.shown

end SketchBuild.Json
