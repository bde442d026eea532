import Mathlib.Data.List.Forall2
import SketchBuild.Diagnostic.Render
import SketchBuild.Proofs.Json.RoundTrip

/-!
# Rows of code

Without colours a traceback is shown as a banner, for each frame its place and one row for each line
of code, and the kind and message. In a row of code a margin comes first, four characters wide with
an arrow or without, then the number, one blank, the bar and the text:

          8 │ func main() {
      → 114 │     Delay(1000)
            │ note: undefined

The numbers of a frame are filled up to the longest one, so its bars stand in one column.
-/

namespace SketchBuild.Diagnostic

open Palette (plain)

/-! ## The width of the numbers -/

/-- The numbers of a frame that are shown, as texts. -/
def shownNumbers (code : List CodeLine) : List String :=
  (code.filter (·.number ≠ 0)).map fun c => toString c.number

theorem numberText_of_ne {n : Int} (h : n ≠ 0) : numberText n = toString n := if_neg h

theorem mem_shownNumbers {code : List CodeLine} {s : String} :
    s ∈ shownNumbers code ↔ ∃ c ∈ code, c.number ≠ 0 ∧ toString c.number = s := by
  simp [shownNumbers, and_assoc]

/-- The width is the greatest length of a number, or one if there is none. -/
theorem numberWidth_eq (code : List CodeLine) :
    numberWidth code = ((shownNumbers code).map String.length).max?.getD 1 := by
  have hmap : (code.filter (·.number ≠ 0)).map (fun c => (numberText c.number).length) =
      (shownNumbers code).map String.length := by
    rw [shownNumbers, List.map_map]
    refine List.map_congr_left fun c hc => ?_
    rw [Function.comp_apply, numberText_of_ne (of_decide_eq_true (List.mem_filter.mp hc).2)]
  rw [numberWidth, hmap]
  cases (shownNumbers code).map String.length with
  | nil => rfl
  | cons w ws => rw [List.max?_cons', Option.getD_some]

theorem length_le_numberWidth {code : List CodeLine} {c : CodeLine} (hc : c ∈ code)
    (hne : c.number ≠ 0) : (toString c.number).length ≤ numberWidth code := by
  have hmem : (toString c.number).length ∈ (shownNumbers code).map String.length :=
    List.mem_map_of_mem (mem_shownNumbers.mpr ⟨c, hc, hne, rfl⟩)
  rw [numberWidth_eq]
  cases hmax : ((shownNumbers code).map String.length).max? with
  | none =>
      rw [List.max?_eq_none_iff.mp hmax] at hmem
      cases hmem
  | some w => exact (List.max?_eq_some_iff.mp hmax).2 _ hmem

/-- The width is not greater than it has to be. -/
theorem numberWidth_tight (code : List CodeLine) :
    (∃ c ∈ code, c.number ≠ 0 ∧ (toString c.number).length = numberWidth code) ∨
      (∀ c ∈ code, c.number = 0) ∧ numberWidth code = 1 := by
  rw [numberWidth_eq]
  cases hmax : ((shownNumbers code).map String.length).max? with
  | none =>
      rw [List.max?_eq_none_iff, List.map_eq_nil_iff] at hmax
      refine .inr ⟨fun c hc => by_contra fun hne => ?_, rfl⟩
      have hmem := mem_shownNumbers.mpr ⟨c, hc, hne, rfl⟩
      rw [hmax] at hmem
      cases hmem
  | some w =>
      obtain ⟨s, hs, rfl⟩ := List.mem_map.mp (List.max?_eq_some_iff.mp hmax).1
      obtain ⟨c, hc, hne, rfl⟩ := mem_shownNumbers.mp hs
      exact .inl ⟨c, hc, hne, rfl⟩

/-! ## One row -/

namespace CodeLine

/-- What stands in front of the number. -/
def margin (c : CodeLine) : List Char :=
  if c.pointer then [' ', ' ', '→', ' '] else [' ', ' ', ' ', ' ']

/-- The text of a line of code; without a number it is trimmed. -/
def shownText (c : CodeLine) : List Char :=
  if c.number = 0 then Text.trim c.text.toList else c.text.toList

/-- How a row with its bar at `column` shows a line of code. -/
structure ShownBy (c : CodeLine) (column : Nat) (row : List Char) : Prop where
  /-- The first bar of the row stands in the column. -/
  bar : '│' ∉ row.take column ∧ row[column]? = some '│'
  /-- There is an arrow before the bar exactly if the line is the one pointed at. -/
  arrow : '→' ∈ row.take column ↔ c.pointer = true
  margin_eq : row.take 4 = c.margin
  /-- A number stands in full, after blanks and one blank before the bar. -/
  number : c.number ≠ 0 → ∃ k, (row.take column).drop 4 =
    List.replicate k ' ' ++ (toString c.number).toList ++ [' ']
  /-- In place of a number that is not known there are blanks. -/
  unknown : c.number = 0 → (row.take column).drop 4 = List.replicate (column - 4) ' '
  text : row.drop (column + 1) = ' ' :: c.shownText

theorem length_margin (c : CodeLine) : c.margin.length = 4 := by
  unfold margin
  split <;> rfl

theorem bar_not_mem_margin (c : CodeLine) : '│' ∉ c.margin := by
  unfold margin
  split <;> decide

theorem arrow_mem_margin (c : CodeLine) : '→' ∈ c.margin ↔ c.pointer = true := by
  unfold margin
  split <;> simp_all

/-- The number of a row, filled up. -/
def field (c : CodeLine) (width : Nat) : List Char :=
  List.replicate (width - (numberText c.number).length) ' ' ++ (numberText c.number).toList

theorem toList_render (c : CodeLine) (width : Nat) :
    (c.render plain width).toList =
      c.margin ++ c.field width ++ [' '] ++ '│' :: ' ' :: c.shownText := by
  have hfield : (Text.padLeft width (numberText c.number)).toList = c.field width := by
    rw [Text.padLeft, Text.blanks, String.toList_append, String.toList_ofList, field]
  have htext : (if c.number = 0 then Text.strip c.text else c.text).toList = c.shownText := by
    unfold shownText
    split
    · rw [Text.strip, String.toList_ofList]
    · rfl
  have hparts : ∀ number text : String,
      (if c.pointer then "  " ++ "" ++ "→ " ++ number ++ " │ " ++ text ++ ""
        else "    " ++ "" ++ number ++ " │" ++ "" ++ " " ++ text).toList =
      c.margin ++ number.toList ++ [' '] ++ '│' :: ' ' :: text.toList := by
    intro number text
    unfold margin
    split <;> simp
  rw [← hfield, ← htext]
  exact hparts _ _

/-- A number holds neither a bar nor an arrow. -/
theorem not_mem_field {c : CodeLine} {width : Nat} {x : Char} (hx : x = '│' ∨ x = '→') :
    x ∉ c.field width := by
  have hblank : x ≠ ' ' := by rcases hx with rfl | rfl <;> decide
  have hprinted : ¬ Json.IsPrinted x := by rcases hx with rfl | rfl <;> decide
  rw [field, List.mem_append]
  rintro (h | h)
  · exact hblank (List.eq_of_mem_replicate h)
  · rw [numberText] at h
    split at h
    · cases h
    · exact hprinted (Json.isPrinted_of_mem_toString c.number x h)

theorem length_field {c : CodeLine} {width : Nat} (h : (numberText c.number).length ≤ width) :
    (c.field width).length = width := by
  rw [field, List.length_append, List.length_replicate, String.length_toList]
  omega

/-- A line whose number fits has its bar five columns after the width. -/
theorem shownBy_render {c : CodeLine} {width : Nat} (h : (numberText c.number).length ≤ width) :
    c.ShownBy (width + 5) (c.render plain width).toList := by
  rw [toList_render]
  have hlen : (c.margin ++ c.field width ++ [' ']).length = width + 5 := by
    rw [List.length_append, List.length_append, length_margin, length_field h,
      List.length_singleton]
    omega
  have htake : (c.margin ++ c.field width ++ [' '] ++ '│' :: ' ' :: c.shownText).take (width + 5) =
      c.margin ++ c.field width ++ [' '] := List.take_left' hlen
  have hinner : (c.margin ++ c.field width ++ [' ']).drop 4 = c.field width ++ [' '] := by
    rw [List.append_assoc]
    exact List.drop_left' c.length_margin
  constructor
  case bar =>
    rw [htake]
    constructor
    · simp only [List.mem_append, not_or]
      exact ⟨⟨c.bar_not_mem_margin, not_mem_field (.inl rfl)⟩, by decide⟩
    · rw [List.getElem?_append_right (Nat.le_of_eq hlen), hlen, Nat.sub_self,
        List.getElem?_cons_zero]
  case arrow =>
    rw [htake]
    simp [c.arrow_mem_margin, not_mem_field]
  case margin_eq =>
    rw [List.append_assoc, List.append_assoc]
    exact List.take_left' c.length_margin
  case number =>
    intro hne
    rw [htake, hinner, field, numberText_of_ne hne]
    exact ⟨_, rfl⟩
  case unknown =>
    intro hzero
    have htext : numberText c.number = "" := if_pos hzero
    have hblanks : c.field width = List.replicate width ' ' := by
      rw [field, htext]
      simp
    rw [htake, hinner, hblanks, ← List.replicate_succ']
    rfl
  case text =>
    rw [← List.drop_drop, List.drop_left' hlen]
    rfl

end CodeLine

/-! ## All rows -/

/-- **Rows of code are aligned and complete.** Without colours a traceback is shown as the banner,
for each frame its place and one row for each line of code, and the kind and message at the end.
Within a frame the first bars of all rows stand in one column, no further to the right than the
longest number demands. Each number stands in full with one blank between it and the bar, there are
blanks in place of a number that is not known, and a row carries the arrow exactly if its line is
the one pointed at. -/
theorem Traceback.rows_aligned (t : Traceback) :
    ∃ rows : Frame → List String,
      t.render plain = "\n".intercalate
        ("Traceback (most recent call last):" ::
          t.frames.flatMap (fun f => f.location plain :: rows f) ++
            [t.kind ++ ": " ++ t.message]) ∧
      ∀ f ∈ t.frames, ∃ column,
        List.Forall₂ (fun c row => c.ShownBy column row.toList) f.code (rows f) ∧
        ((∃ c ∈ f.code, c.number ≠ 0 ∧ column = (toString c.number).length + 5) ∨
          (∀ c ∈ f.code, c.number = 0) ∧ column = 6) := by
  refine ⟨fun f => f.code.map (·.render plain (numberWidth f.code)), ?_, fun f _ => ?_⟩
  · have hbanner : "" ++ "Traceback (most recent call last):" ++ "" =
        "Traceback (most recent call last):" := by decide
    have hend : "" ++ t.kind ++ "" ++ ": " ++ t.message = t.kind ++ ": " ++ t.message := by
      rw [String.empty_append, String.append_empty]
    rw [← hbanner, ← hend]
    rfl
  · refine ⟨numberWidth f.code + 5, ?_, ?_⟩
    · rw [List.forall₂_map_right_iff, List.forall₂_same]
      intro c hc
      refine CodeLine.shownBy_render ?_
      rw [numberText]
      split
      · exact Nat.zero_le _
      · next hne => exact length_le_numberWidth hc hne
    · obtain ⟨c, hc, hne, hwidth⟩ | ⟨hzero, hwidth⟩ := numberWidth_tight f.code
      · exact .inl ⟨c, hc, hne, by rw [hwidth]⟩
      · exact .inr ⟨hzero, by rw [hwidth]⟩

end SketchBuild.Diagnostic
