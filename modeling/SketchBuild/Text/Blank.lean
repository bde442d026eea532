/-!
# Blanks, fields and words

A text is read as a list of characters. This file fixes which characters are blank, cuts blanks off
the ends of a text, and splits a text into fields at separator characters. Words are the non-empty
fields between blanks.
-/

namespace SketchBuild.Text

/-- White space: tab to carriage return, the four separators before the space, the space, and the
blanks beyond ASCII. The zero-width space and the byte order mark are not blank. -/
def isBlank (c : Char) : Bool :=
  let n := c.toNat
  (0x09 ≤ n && n ≤ 0x0D) || (0x1C ≤ n && n ≤ 0x20) || n == 0x85 || n == 0xA0 || n == 0x1680 ||
  (0x2000 ≤ n && n ≤ 0x200A) || n == 0x2028 || n == 0x2029 || n == 0x202F || n == 0x205F ||
  n == 0x3000

/-! ### Trimming -/

/-- `cs` without its leading characters that satisfy `p`. -/
def trimLeftBy (p : Char → Bool) (cs : List Char) : List Char := cs.dropWhile p

/-- `cs` without its trailing characters that satisfy `p`. -/
def trimRightBy (p : Char → Bool) (cs : List Char) : List Char :=
  (cs.reverse.dropWhile p).reverse

/-- `cs` without its trailing blanks. -/
def trimRight (cs : List Char) : List Char := trimRightBy isBlank cs

/-- `cs` without the blanks at its two ends. -/
def trim (cs : List Char) : List Char := trimRight (trimLeftBy isBlank cs)

/-- `trim` on strings. -/
def strip (s : String) : String := String.ofList (trim s.toList)

/-- `trimRight` on strings. -/
def stripRight (s : String) : String := String.ofList (trimRight s.toList)

/-! ### Fields and words -/

/-- Puts `c` in front of the first field. -/
def consField {α : Type} (c : α) : List (List α) → List (List α)
  | [] => [[c]]
  | f :: fs => (c :: f) :: fs

/-- The fields between the elements that satisfy `p`: one more than there are separators. -/
def fields {α : Type} (p : α → Bool) : List α → List (List α)
  | [] => [[]]
  | c :: cs => if p c then [] :: fields p cs else consField c (fields p cs)

/-- What is put between fields is all that joining them adds. -/
theorem mem_intercalate_iff {α : Type} {sep : List α} {x : α} (h : x ∉ sep)
    {fs : List (List α)} : x ∈ sep.intercalate fs ↔ ∃ f ∈ fs, x ∈ f := by
  induction fs with
  | nil => simp
  | cons f fs ih =>
    cases fs with
    | nil => simp
    | cons g fs =>
      rw [List.intercalate_cons_cons, List.mem_append, List.mem_append, ih]
      simp [h]

/-- The maximal runs of characters that are not blank. -/
def words (cs : List Char) : List (List Char) :=
  (fields isBlank cs).filter (!·.isEmpty)

end SketchBuild.Text
