import SketchBuild.Text.Quoted

/-!
# Halves of surrogate pairs

An escape may name half of a surrogate pair and leave out the other half. Such a half is no
character, so a sequence that holds one is no text: it is a list of pieces, each a character or a
half. Pieces can be quoted, where a half is written as its escape; most of them cannot be encoded.
-/

namespace SketchBuild.Text

/-- Half of a surrogate pair: one of the 2048 codes that stand for no character. -/
structure Half where
  index : Fin 0x800
deriving DecidableEq, Repr

namespace Half

/-- The code of a half. -/
def code (h : Half) : Nat := 0xD800 + h.index.val

/-- The half with a code. -/
def ofCode? (n : Nat) : Option Half :=
  if h : 0xD800 ≤ n ∧ n ≤ 0xDFFF then some ⟨n - 0xD800, by omega⟩ else none

theorem code_of_ofCode? {n : Nat} {h : Half} (e : ofCode? n = some h) : h.code = n := by
  unfold ofCode? at e
  split at e
  · obtain rfl := Option.some.inj e
    simp only [code]
    omega
  · contradiction

/-- Whether a half stands for a single byte in the encoding of a path. -/
def isByte (h : Half) : Bool := 0xDC80 ≤ h.code && h.code ≤ 0xDCFF

/-- The escape of a half. -/
def escape (h : Half) : List Char := '\\' :: 'u' :: hex 4 h.code

end Half

/-- A character, or half of a surrogate pair that stands alone. -/
inductive Piece
  | char (c : Char)
  | half (h : Half)
deriving DecidableEq, Repr

namespace Piece

/-- The character of a piece. -/
def char? : Piece → Option Char
  | .char c => some c
  | .half _ => none

/-- The character that shows a piece; the replacement character stands for a half. -/
def shown : Piece → Char
  | .char c => c
  | .half _ => '�'

/-- Whether a piece is a half. -/
def isHalf : Piece → Bool
  | .char _ => false
  | .half _ => true

/-- One piece inside the given quotes. -/
def escape (quote : Char) : Piece → List Char
  | .char c => escapeChar quote c
  | .half h => h.escape

end Piece

/-- The characters of pieces among which there is no half. -/
def chars? : List Piece → Option (List Char)
  | [] => some []
  | .half _ :: _ => none
  | .char c :: ps => (chars? ps).map (c :: ·)

/-- Characters as pieces are those characters. -/
@[simp] theorem chars?_map_char (cs : List Char) : chars? (cs.map .char) = some cs := by
  induction cs with
  | nil => rfl
  | cons c cs ih => simp [chars?, ih]

/-- Pieces that are no text hold a half. -/
theorem chars?_eq_none_iff {ps : List Piece} : chars? ps = none ↔ ∃ h, Piece.half h ∈ ps := by
  induction ps with
  | nil => simp [chars?]
  | cons p ps ih => cases p <;> simp [chars?, ih]

/-- Pieces between quotes. -/
def quotePieces (ps : List Piece) : List Char :=
  let q := quoteFor (ps.filterMap Piece.char?)
  q :: ps.flatMap (·.escape q) ++ [q]

/-! ### Encoding -/

/-- The halves that keep pieces from being encoded: the place of the first, their number, and the
first itself. -/
structure Unencodable where
  position : Nat
  size : Nat
  first : Half
deriving DecidableEq, Repr

/-- The first halves that are not let pass, in pieces that have `before` others in front. -/
def stuck? (passes : Half → Bool) (before : Nat) : List Piece → Option Unencodable
  | [] => none
  | .half h :: ps =>
    if passes h then stuck? passes (before + 1) ps
    else some ⟨before, 1 + (ps.takeWhile Piece.isHalf).length, h⟩
  | .char _ :: ps => stuck? passes (before + 1) ps

end SketchBuild.Text
