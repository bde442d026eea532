import Mathlib.Algebra.Group.Nat.Defs
import SketchBuild.Json.Basic
import SketchBuild.Text.Digit

/-!
# Values as they are read

A text cannot give every value: its whole numbers have at most `maxDigits` digits, the names of an
object differ, and two halves of a surrogate pair that stand side by side are a character. Values
that respect this are canonical. They are the values that a reader gives and that a printer may be
asked to write so that they come back.

`Json.all` says that a value and everything in it pass a test; `Json.ind` is the induction that goes
with it.
-/

namespace SketchBuild

/-! ## Strings -/

namespace Text

/-- Whether a half begins a surrogate pair. The others end one. -/
def Half.isFirst (h : Half) : Bool := h.code < 0xDC00

/-- Whether two pieces that stand side by side make a surrogate pair. -/
def Piece.joins : Piece → Piece → Bool
  | .half h, .half h' => h.isFirst && !h'.isFirst
  | _, _ => false

/-- Whether no two neighbours make a surrogate pair. -/
def parted : List Piece → Bool
  | p :: q :: ps => !p.joins q && parted (q :: ps)
  | _ => true

theorem parted_cons {p : Piece} {ps : List Piece} :
    parted (p :: ps) = true ↔ (∀ q, ps.head? = some q → p.joins q = false) ∧ parted ps = true := by
  cases ps with
  | nil => simp [parted]
  | cons q ps => simp [parted]

theorem parted_map_char (cs : List Char) : parted (cs.map .char) = true := by
  induction cs with
  | nil => rfl
  | cons c cs ih => exact parted_cons.mpr ⟨fun q _ => rfl, ih⟩

end Text

namespace Text.Str

/-- Whether a string is one that can be read: no two neighbours make a pair. -/
def isCanonical : Str → Bool
  | .text _ => true
  | .torn ps _ => parted ps

theorem isCanonical_of_isText {s : Str} (h : s.isText = true) : s.isCanonical = true := by
  cases s with
  | text s => rfl
  | torn ps hps => cases h

/-- A string is told by its pieces. -/
@[simp] theorem ofPieces_pieces (s : Str) : ofPieces s.pieces = s := by
  cases s with
  | text s => simp [pieces]
  | torn ps hps =>
      rw [pieces, ofPieces]
      split
      · next h =>
          rw [hps] at h
          cases h
      · rfl

theorem parted_pieces {s : Str} (h : s.isCanonical = true) : parted s.pieces = true := by
  cases s with
  | text s => exact parted_map_char s.toList
  | torn ps hps => exact h

theorem isCanonical_ofPieces {ps : List Piece} (h : parted ps = true) :
    (ofPieces ps).isCanonical = true := by
  rw [ofPieces]
  split
  · rfl
  · exact h

end Text.Str

open Text (Str)

/-! ## Values -/

namespace Json

/-- What holds of a value if it holds of all its items and members holds of every value. -/
@[elab_as_elim]
theorem ind {motive : Json → Prop} (null : motive .null) (bool : ∀ b, motive (.bool b))
    (int : ∀ n, motive (.int n)) (float : ∀ x, motive (.float x)) (str : ∀ s, motive (.str s))
    (arr : ∀ items, (∀ v ∈ items, motive v) → motive (.arr items))
    (obj : ∀ members, (∀ m ∈ members, motive m.2) → motive (.obj members)) (v : Json) :
    motive v :=
  @Json.rec motive (fun items => ∀ v ∈ items, motive v) (fun members => ∀ m ∈ members, motive m.2)
    (fun m => motive m.2) null bool int float str arr obj (List.forall_mem_nil _)
    (fun _ _ hv hvs => List.forall_mem_cons.mpr ⟨hv, hvs⟩) (List.forall_mem_nil _)
    (fun _ _ hm hms => List.forall_mem_cons.mpr ⟨hm, hms⟩) (fun _ _ hv => hv) v

mutual

/-- Whether a value and all values in it pass a test. -/
def all (p : Json → Bool) : Json → Bool
  | .arr items => p (.arr items) && allItems p items
  | .obj members => p (.obj members) && allMembers p members
  | v => p v

/-- Whether all items and the values in them pass a test. -/
def allItems (p : Json → Bool) : List Json → Bool
  | [] => true
  | v :: vs => v.all p && allItems p vs

/-- Whether the values of all members and the values in them pass a test. -/
def allMembers (p : Json → Bool) : List (Str × Json) → Bool
  | [] => true
  | (_, v) :: ms => v.all p && allMembers p ms

end

theorem allItems_iff {p : Json → Bool} {items : List Json} :
    allItems p items = true ↔ ∀ v ∈ items, v.all p = true := by
  induction items with
  | nil => simp [allItems]
  | cons v vs ih => simp [allItems, ih]

theorem allMembers_iff {p : Json → Bool} {members : List (Str × Json)} :
    allMembers p members = true ↔ ∀ m ∈ members, m.2.all p = true := by
  induction members with
  | nil => simp [allMembers]
  | cons m ms ih =>
      obtain ⟨name, v⟩ := m
      rw [allMembers, Bool.and_eq_true, ih, List.forall_mem_cons]

theorem all_arr {p : Json → Bool} {items : List Json} :
    (arr items).all p = true ↔ p (.arr items) = true ∧ ∀ v ∈ items, v.all p = true := by
  rw [all, Bool.and_eq_true, allItems_iff]

theorem all_obj {p : Json → Bool} {members : List (Str × Json)} :
    (obj members).all p = true ↔ p (.obj members) = true ∧ ∀ m ∈ members, m.2.all p = true := by
  rw [all, Bool.and_eq_true, allMembers_iff]

/-- What passes two tests throughout passes every test that follows from them. -/
theorem all_of_all {p q r : Json → Bool} (h : ∀ u, p u = true → q u = true → r u = true) {v : Json}
    (hp : v.all p = true) (hq : v.all q = true) : v.all r = true := by
  induction v using ind with
  | arr items ih =>
      obtain ⟨hp, hps⟩ := all_arr.mp hp
      obtain ⟨hq, hqs⟩ := all_arr.mp hq
      exact all_arr.mpr ⟨h _ hp hq, fun v hv => ih v hv (hps v hv) (hqs v hv)⟩
  | obj members ih =>
      obtain ⟨hp, hps⟩ := all_obj.mp hp
      obtain ⟨hq, hqs⟩ := all_obj.mp hq
      exact all_obj.mpr ⟨h _ hp hq, fun m hm => ih m hm (hps m hm) (hqs m hm)⟩
  | null => exact h _ hp hq
  | bool b => exact h _ hp hq
  | int n => exact h _ hp hq
  | float x => exact h _ hp hq
  | str s => exact h _ hp hq

/-- Whether a whole number is written with at most `maxDigits` digits. -/
def isShort (n : Int) : Bool := n.natAbs < 10 ^ Text.maxDigits

/-- Whether no two members have the same name. -/
def namesDiffer (members : List (Str × Json)) : Bool := (members.map (·.1)).Nodup

/-- Whether a value, apart from the values in it, is one that can be read. -/
def isCanonical : Json → Bool
  | .int n => isShort n
  | .str s => s.isCanonical
  | .obj members => members.all (·.1.isCanonical) && namesDiffer members
  | _ => true

/-- Whether a value is a number that is not whole. -/
def isFloat : Json → Bool
  | .float _ => true
  | _ => false

/-- Whether a value, apart from the values in it, is a constant, a whole number that is not too
long, a text, an array, or an object whose names are texts and differ. -/
def isPlain : Json → Bool
  | .int n => isShort n
  | .float _ => false
  | .str s => s.isText
  | .obj members => members.all (·.1.isText) && namesDiffer members
  | _ => true

/-- A value that can be read, and so can all values in it. -/
abbrev Canonical (v : Json) : Prop := v.all isCanonical = true

/-- A value in which all numbers are whole. -/
abbrev FloatFree (v : Json) : Prop := v.all (!·.isFloat) = true

/-- A value that is plain, and so are all values in it. -/
abbrev Plain (v : Json) : Prop := v.all isPlain = true

theorem canonical_int {n : Int} : Canonical (.int n) ↔ n.natAbs < 10 ^ Text.maxDigits := by
  simp only [Canonical, all, isCanonical, isShort, decide_eq_true_eq]

theorem isCanonical_of_isPlain {u : Json} (h : u.isPlain = true) : u.isCanonical = true := by
  cases u with
  | str s => exact Str.isCanonical_of_isText h
  | obj members =>
      rw [isPlain, Bool.and_eq_true, List.all_eq_true] at h
      rw [isCanonical, Bool.and_eq_true, List.all_eq_true]
      exact ⟨fun m hm => Str.isCanonical_of_isText (h.1 m hm), h.2⟩
  | int n => exact h
  | null | bool | float | arr => rfl

theorem Plain.canonical {v : Json} (h : Plain v) : Canonical v :=
  all_of_all (fun _ hu _ => isCanonical_of_isPlain hu) h h

theorem Plain.floatFree {v : Json} (h : Plain v) : FloatFree v := by
  refine all_of_all (fun u hu _ => ?_) h h
  cases u with
  | float x => cases hu
  | null | bool | int | str | arr | obj => rfl

end Json

end SketchBuild
