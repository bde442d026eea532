import SketchBuild.Number.Binary64

/-!
# Shortest decimals

A floating-point number is written with the fewest digits that read back as the same number, and of
those with the digits nearest to it. Numbers between `10 ^ -4` and `10 ^ 16` are written in
positional notation with at least one digit after the point, the others with an exponent of at
least two digits.
-/

namespace SketchBuild.Number

/-- A positive decimal: the digits, read as a whole number with `length` digits, and the place of
the decimal point counted from their left end. -/
structure Decimal where
  digits : Nat
  length : Nat
  point : Int

namespace Binary64

/-- Compares `a · 10 ^ k` with `b · 2 ^ q`. -/
def compareScaled (a : Nat) (k : Int) (b : Nat) (q : Int) : Ordering :=
  compare (a * pow10 k.toNat * pow2 (-q).toNat) (b * pow2 q.toNat * pow10 (-k).toNat)

/-- Whether `a · 10 ^ k` reads back as `m · 2 ^ q`. The bounds are half way to the two neighbours,
in units of `2 ^ (q - 2)`; they belong to the number if its mantissa is even. -/
def readsBack (m : Nat) (q : Int) (a : Nat) (k : Int) : Bool :=
  let below := if m = pow2 52 ∧ minExponent < q then 4 * m - 1 else 4 * m - 2
  let above := 4 * m + 2
  let lower := compareScaled a k below (q - 2)
  let upper := compareScaled a k above (q - 2)
  (lower == .gt || lower == .eq && m % 2 == 0) && (upper == .lt || upper == .eq && m % 2 == 0)

/-- `m · 2 ^ q / 10 ^ k`, rounded down. -/
def scaledFloor (m : Nat) (q k : Int) : Nat :=
  (m * pow2 q.toNat * pow10 (-k).toNat) / (pow2 (-q).toNat * pow10 k.toNat)

/-- Whether `a` is nearer to `m · 2 ^ q / 10 ^ k` than `a + 1` is; a tie goes to the even one. -/
def lowerIsNearer (m : Nat) (q : Int) (a : Nat) (k : Int) : Bool :=
  -- twice the value against the sum of the two candidates
  match compareScaled (2 * a + 1) k (2 * m) q with
  | .gt => true
  | .lt => false
  | .eq => a % 2 == 0

/-- The best decimal with `n` digits for `m · 2 ^ q`, whose decimal point stands at `point`. -/
def candidate? (m : Nat) (q point : Int) (n : Nat) : Option Decimal :=
  let k := point - n
  let a := scaledFloor m q k
  match readsBack m q a k, readsBack m q (a + 1) k with
  | true, true => some ⟨if lowerIsNearer m q a k then a else a + 1, n, point⟩
  | true, false => some ⟨a, n, point⟩
  | false, true => some ⟨a + 1, n, point⟩
  | false, false => none

/-- The place of the decimal point of `m · 2 ^ q`: the least `e` with `m · 2 ^ q < 10 ^ e`. -/
def decimalPoint (m : Nat) (q : Int) : Int :=
  let whole := scaledFloor m q 0
  if 0 < whole then (Nat.toDigits 10 whole).length
  else
    -- below one: count the digits after scaling by a power of ten beyond the smallest number
    (Nat.toDigits 10 (scaledFloor m q (-400))).length - 400

/-- The shortest decimal that reads back as `m · 2 ^ q`. Seventeen digits always do. -/
def shortest (m : Nat) (q : Int) : Decimal :=
  let point := decimalPoint m q
  match (List.range 17).findSome? fun i => candidate? m q point (i + 1) with
  | some d => d
  | none => ⟨scaledFloor m q (point - 17), 17, point⟩

end Binary64

/-! ### Writing -/

namespace Decimal

/-- The digits without trailing zeros, and the place of the point. A decimal that was rounded up to
the next power of ten has one digit more than its length says. -/
def significant (d : Decimal) : List Char × Int :=
  let ds := Nat.toDigits 10 d.digits
  ((ds.reverse.dropWhile (· == '0')).reverse, d.point + ((ds.length : Int) - d.length))

/-- Digits around a decimal point, with a zero on a side that would be empty. -/
def positional (ds : List Char) (point : Int) : List Char :=
  if point ≤ 0 then '0' :: '.' :: List.replicate (-point).toNat '0' ++ ds
  else if point < ds.length then ds.take point.toNat ++ '.' :: ds.drop point.toNat
  else ds ++ List.replicate (point.toNat - ds.length) '0' ++ ['.', '0']

/-- One digit before the point, and an exponent with a sign and at least two digits. -/
def scientific (ds : List Char) (exponent : Int) : List Char :=
  let fraction := if ds.length ≤ 1 then [] else '.' :: ds.drop 1
  let size := Nat.toDigits 10 exponent.natAbs
  ds.take 1 ++ fraction ++ ['e', if exponent < 0 then '-' else '+'] ++
    List.replicate (2 - size.length) '0' ++ size

/-- The text of a decimal. -/
def write (d : Decimal) : List Char :=
  let (ds, point) := d.significant
  if -4 ≤ point - 1 ∧ point - 1 < 16 then positional ds point else scientific ds (point - 1)

end Decimal

/-- The texts of the numbers that have no digits. -/
structure Binary64.Words where
  nan : String
  infinity : String

/-- The text of a number: a sign, then the shortest decimal or the word for it. -/
def Binary64.text (words : Words) : Binary64 → String
  | .nan => words.nan
  | .infinite negative => (if negative then "-" else "") ++ words.infinity
  | .finite negative m q =>
    (if negative then "-" else "") ++
      (if m = 0 then "0.0" else String.ofList (Binary64.shortest m q).write)

end SketchBuild.Number
