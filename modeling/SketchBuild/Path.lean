import SketchBuild.Text.Blank

/-!
# Paths

A path is an anchor and the names below it. It is normalised when it is made: repeated slashes, `.`
and a trailing slash vanish, while `..` stays, since what it means depends on the disk. Names are
texts: bytes that encode no text are no name here.
-/

namespace SketchBuild

/-- Where a path starts: at the working directory, or at a root spelled with one or two slashes. -/
inductive Anchor
  | relative
  | slash
  | doubleSlash
deriving DecidableEq, Repr

/-- A path in normal form. -/
structure Path where
  anchor : Anchor
  parts : List String
deriving DecidableEq, Repr

namespace Path

/-- The spelling of an anchor. -/
def anchorText : Anchor → String
  | .relative => ""
  | .slash => "/"
  | .doubleSlash => "//"

/-- The names in a text between slashes, without empty ones. -/
def names (s : String) : List String :=
  ((Text.fields (· == '/') s.toList).filter (!·.isEmpty)).map String.ofList

/-- The anchor of a text: exactly two leading slashes are kept, more are one. -/
def anchorOf (s : String) : Anchor :=
  match (s.toList.takeWhile (· == '/')).length with
  | 0 => .relative
  | 2 => .doubleSlash
  | _ => .slash

/-- Reads a path. -/
def ofString (s : String) : Path := ⟨anchorOf s, (names s).filter (· != ".")⟩

/-- The text of a path; the empty relative one is `.`. -/
def toString (p : Path) : String :=
  match p.anchor, p.parts with
  | .relative, [] => "."
  | a, ps => anchorText a ++ "/".intercalate ps

instance : ToString Path := ⟨Path.toString⟩

/-- Whether a path starts at a root. -/
def isAbsolute (p : Path) : Bool := p.anchor != .relative

/-- The path `q` seen from `p`: `q` itself if it starts at a root. -/
def join (p q : Path) : Path := if q.isAbsolute then q else ⟨p.anchor, p.parts ++ q.parts⟩

/-- The entry `name` of the directory `p`. -/
def child (p : Path) (name : String) : Path := ⟨p.anchor, p.parts ++ [name]⟩

/-- The path without its last name; a path without names is its own parent. -/
def parent (p : Path) : Path := ⟨p.anchor, p.parts.dropLast⟩

/-- The last name, empty if there is none. -/
def name (p : Path) : String := p.parts.getLast?.getD ""

@[simp] theorem name_child (p : Path) (n : String) : (p.child n).name = n := by
  simp [name, child]

/-- A file name without its last suffix. A dot that starts or ends the name begins no suffix. -/
def stemOf (name : String) : String :=
  let cs := name.toList
  let after := (cs.reverse.takeWhile (· != '.')).length
  -- the last dot, if there is one, stands before the last `after` characters
  let before := cs.length - after - 1
  if after = cs.length ∨ after = 0 ∨ before = 0 then name else String.ofList (cs.take before)

/-- The last name without its suffix. -/
def stem (p : Path) : String := stemOf p.name

end Path

end SketchBuild
