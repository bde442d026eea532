import SketchBuild.Number.Binary64
import SketchBuild.Text.Str

/-!
# JSON values

The values that manifest and settings files hold. Whole numbers are unbounded; the members of an
object keep their order and have distinct names.
-/

namespace SketchBuild

open Number (Binary64)
open Text (Str)

/-- A JSON value. -/
inductive Json
  | null
  | bool (b : Bool)
  | int (n : Int)
  | float (x : Binary64)
  | str (s : Str)
  | arr (items : List Json)
  | obj (members : List (Str × Json))
deriving Inhabited

namespace Json

/-- The value of a text. -/
@[match_pattern] def text (s : String) : Json := .str (.text s)

/-- An object whose names are texts. -/
def object (members : List (String × Json)) : Json :=
  .obj (members.map fun (name, v) => (.text name, v))

/-! ### Questions -/

/-- Whether a value counts as true: zero, the empty ones, `null` and `false` do not. -/
def truthy : Json → Bool
  | .null => false
  | .bool b => b
  | .int n => n != 0
  | .float x => !x.isZero
  | .str s => !s.isEmpty
  | .arr items => !items.isEmpty
  | .obj members => !members.isEmpty

/-- `a`, or `b` if `a` does not count as true. -/
def orElse (a b : Json) : Json := if a.truthy then a else b

/-- The name of a value's kind, as messages give it. -/
def kind : Json → String
  | .null => "NoneType"
  | .bool _ => "bool"
  | .int _ => "int"
  | .float _ => "float"
  | .str _ => "str"
  | .arr _ => "list"
  | .obj _ => "dict"

/-- Whether a value is a text. -/
def isText : Json → Bool
  | .str s => s.isText
  | _ => false

@[simp] theorem isText_text (s : String) : (text s).isText = true := rfl

/-- The value of the member `name` in a list of members. -/
def member? (name : String) (members : List (Str × Json)) : Option Json :=
  members.lookup (.text name)

/-- Puts a member in its place: one of the same name keeps its place and takes the new value. -/
def setMember (name : Str) (value : Json) : List (Str × Json) → List (Str × Json)
  | [] => [(name, value)]
  | (n, v) :: rest => if n = name then (n, value) :: rest else (n, v) :: setMember name value rest

/-! ### Nesting -/

mutual

/-- How many arrays and objects stand around the innermost value, at most. -/
def depth : Json → Nat
  | .arr items => depthOfItems items + 1
  | .obj members => depthOfMembers members + 1
  | _ => 0

/-- The depth of the deepest item. -/
def depthOfItems : List Json → Nat
  | [] => 0
  | v :: vs => max v.depth (depthOfItems vs)

/-- The depth of the deepest member. -/
def depthOfMembers : List (Str × Json) → Nat
  | [] => 0
  | (_, v) :: ms => max v.depth (depthOfMembers ms)

end

/-- Where the stack ran out on a value that is nested too deeply. -/
inductive TooDeep
  | readingArray
  | readingObject
  | calling
  | elsewhere
deriving DecidableEq, Repr

/-- The wording for a value that is nested too deeply. -/
def TooDeep.message (e : TooDeep) : String :=
  "maximum recursion depth exceeded" ++
    match e with
    | .readingArray => " while decoding a JSON array from a unicode string"
    | .readingObject => " while decoding a JSON object from a unicode string"
    | .calling => " while calling a Python object"
    | .elsewhere => ""

end Json

end SketchBuild
