/-!
# Binary floating-point numbers

Numbers with a fraction or an exponent are kept as the nearest number of the form `m · 2 ^ q` with
`m < 2 ^ 53`, a half going to the even neighbour. All arithmetic is on natural numbers.
-/

namespace SketchBuild.Number

/-- A floating-point number of 64 bits. -/
inductive Binary64
  | nan
  | infinite (negative : Bool)
  /-- The number `mantissa · 2 ^ exponent`, with `negative` as its sign. -/
  | finite (negative : Bool) (mantissa : Nat) (exponent : Int)
deriving DecidableEq, Repr

namespace Binary64

/-- The exponent of the smallest numbers. -/
def minExponent : Int := -1074

/-- The exponent of the largest numbers. -/
def maxExponent : Int := 971

/-- The number `2 ^ n`. -/
def pow2 (n : Nat) : Nat := Nat.pow 2 n

/-- The number `10 ^ n`. -/
def pow10 (n : Nat) : Nat := Nat.pow 10 n

/-- A quotient rounded to the nearest whole number, a half to the even one. -/
def roundDiv (num den : Nat) : Nat :=
  let d := num / den
  let r := num % den
  if 2 * r < den then d
  else if den < 2 * r then d + 1
  else if d % 2 = 0 then d else d + 1

/-- The largest `e` with `2 ^ e ≤ num / den`, for positive `num` and `den`. -/
def floorLog2 (num den : Nat) : Int :=
  let e : Int := (num.log2 : Int) - den.log2
  let reached : Bool :=
    if 0 ≤ e then den * pow2 e.toNat ≤ num else den ≤ num * pow2 (-e).toNat
  if reached then e else e - 1

/-- The number nearest to `num / den`. -/
def ofRatio (negative : Bool) (num den : Nat) : Binary64 :=
  if num = 0 then .finite negative 0 minExponent
  else
    let q := max minExponent (floorLog2 num den - 52)
    let m := if 0 ≤ q then roundDiv num (den * pow2 q.toNat)
      else roundDiv (num * pow2 (-q).toNat) den
    let (m, q) := if m = pow2 53 then (pow2 52, q + 1) else (m, q)
    if maxExponent < q then .infinite negative else .finite negative m q

/-- The number nearest to `digits · 10 ^ exponent`. A decimal exponent far outside the range of
finite numbers is decided without computing the power. -/
def ofDecimal (negative : Bool) (digits : Nat) (exponent : Int) : Binary64 :=
  if digits = 0 then .finite negative 0 minExponent
  else
    let size : Int := (Nat.toDigits 10 digits).length + exponent
    if 310 < size then .infinite negative
    else if size < -330 then .finite negative 0 minExponent
    else if 0 ≤ exponent then ofRatio negative (digits * pow10 exponent.toNat) 1
    else ofRatio negative digits (pow10 (-exponent).toNat)

/-- Positive or negative zero. -/
def isZero : Binary64 → Bool
  | .finite _ m _ => m == 0
  | _ => false

end Binary64

end SketchBuild.Number
