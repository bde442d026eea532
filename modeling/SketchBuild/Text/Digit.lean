import SketchBuild.Text.Blank

/-!
# Decimal digits and whole numbers

Digits of every script count as digits. A number is read from at most `maxDigits` digits: a longer
run is refused with its length, whatever its value.
-/

namespace SketchBuild.Text

/-- The digit zero of every script, by the Unicode standard, version 14. The digits one to nine
follow it. -/
def zeros : List Nat := [
  0x30, 0x660, 0x6F0, 0x7C0, 0x966, 0x9E6, 0xA66, 0xAE6, 0xB66, 0xBE6, 0xC66, 0xCE6, 0xD66, 0xDE6,
  0xE50, 0xED0, 0xF20, 0x1040, 0x1090, 0x17E0, 0x1810, 0x1946, 0x19D0, 0x1A80, 0x1A90, 0x1B50,
  0x1BB0, 0x1C40, 0x1C50, 0xA620, 0xA8D0, 0xA900, 0xA9D0, 0xA9F0, 0xAA50, 0xABF0, 0xFF10, 0x104A0,
  0x10D30, 0x11066, 0x110F0, 0x11136, 0x111D0, 0x112F0, 0x11450, 0x114D0, 0x11650, 0x116C0,
  0x11730, 0x118E0, 0x11950, 0x11C50, 0x11D50, 0x11DA0, 0x16A60, 0x16AC0, 0x16B50, 0x1D7CE,
  0x1D7D8, 0x1D7E2, 0x1D7EC, 0x1D7F6, 0x1E140, 0x1E2F0, 0x1E950, 0x1FBF0]

/-- The value of a decimal digit of any script. -/
def digitValue? (c : Char) : Option Nat :=
  zeros.findSome? fun z => if z ≤ c.toNat ∧ c.toNat < z + 10 then some (c.toNat - z) else none

/-- A decimal digit of any script. -/
def isDigit (c : Char) : Bool := (digitValue? c).isSome

/-- The longest run of digits that is read as a number. -/
def maxDigits : Nat := 4300

/-- A run of more than `maxDigits` digits. -/
structure TooManyDigits where
  count : Nat
deriving DecidableEq, Repr

/-- Says how long the run was and what the limit is. -/
def TooManyDigits.message (e : TooManyDigits) : String :=
  s!"Exceeds the limit ({maxDigits} digits) for integer string conversion: value has {e.count} " ++
    "digits; use sys.set_int_max_str_digits() to increase the limit"

/-- The value of a text read as digits, the most significant first. -/
def digitsValue (cs : List Char) : Nat :=
  cs.foldl (fun n c => 10 * n + (digitValue? c).getD 0) 0

/-- Reads a run of digits. -/
def readDigits (cs : List Char) : Except TooManyDigits Nat :=
  if cs.length ≤ maxDigits then .ok (digitsValue cs) else .error ⟨cs.length⟩

/-! ### Signed numbers with separators -/

/-- The blanks allowed around a number: all but the four separators before the space. -/
def isNumberBlank (c : Char) : Bool := isBlank c && !(0x1C ≤ c.toNat && c.toNat ≤ 0x1F)

/-- The digits of a numeral in which single underscores may stand between digits. -/
def groupedDigits? (cs : List Char) : Option (List Char) :=
  let groups := fields (· == '_') cs
  if groups.all fun g => !g.isEmpty && g.all isDigit then some groups.flatten else none

/-- Reads a number with an optional sign, underscores between digits and blanks around it. -/
def readInt? (cs : List Char) : Option Int :=
  let body := trimRightBy isNumberBlank (trimLeftBy isNumberBlank cs)
  let (negative, numeral) :=
    match body with
    | '-' :: ds => (true, ds)
    | '+' :: ds => (false, ds)
    | ds => (false, ds)
  match groupedDigits? numeral with
  | none => none
  | some ds =>
    match readDigits ds with
    | .error _ => none
    | .ok n => some (if negative then -(n : Int) else n)

end SketchBuild.Text
