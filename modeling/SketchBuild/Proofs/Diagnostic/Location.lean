import SketchBuild.Proofs.Diagnostic.Report
import SketchBuild.Proofs.Numeral

/-!
# Locations

A location stands in one line and is `file:line` or `file:line:column`. A file may itself hold
colons and numbers, as in `C:\lamp.go` or `a:7`, so that a text can often be read in two ways:
`a:7:3` is line 3 of `a:7` as well as column 3 of line 7 of `a`. Of the readings, the one with the
shortest file is taken. It is found from the right: a number is cut off, and one more if there is
one.
-/

namespace SketchBuild.Diagnostic.Translator

open Text (IsNumber isDigit maxDigits digitsValue)

/-- `cs` is `file:number`. -/
def Located (cs file number : List Char) : Prop :=
  file ≠ [] ∧ IsNumber number ∧ cs = file ++ ':' :: number

/-- A way to read a text as a location: with a line, or with a line and a column. -/
inductive Reading (cs file line : List Char) : Prop
  | line : Located cs file line → Reading cs file line
  | column {before column : List Char} :
      Located cs before column → Located before file line → Reading cs file line

variable {cs file line : List Char}

theorem Located.length_lt (h : Located cs file line) : file.length < cs.length := by
  obtain ⟨-, -, rfl⟩ := h
  rw [List.length_append, List.length_cons]
  omega

theorem located_of_numberedTail? {before digits : List Char}
    (h : numberedTail? cs = some (before, digits)) : Located cs before digits := by
  have hsplit : cs =
      (cs.reverse.dropWhile isDigit).reverse ++ (cs.reverse.takeWhile isDigit).reverse := by
    rw [← List.reverse_append, List.takeWhile_append_dropWhile, List.reverse_reverse]
  unfold numberedTail? at h
  dsimp only at h
  split at h
  · next rest hrest =>
      obtain ⟨hne, heq⟩ := Option.ite_none_left_eq_some.mp h
      obtain ⟨rfl, rfl⟩ := Prod.mk.inj (Option.some.inj heq)
      rw [Bool.or_eq_true, not_or, List.isEmpty_iff, List.isEmpty_iff] at hne
      refine ⟨mt List.reverse_eq_nil_iff.mp hne.2, ⟨hne.1, fun c hc => ?_⟩, ?_⟩
      · exact List.mem_takeWhile_imp (List.mem_reverse.mp hc)
      · rw [hrest] at hsplit
        simpa using hsplit
  · cases h

theorem numberedTail?_eq_some_iff {before digits : List Char} :
    numberedTail? cs = some (before, digits) ↔ Located cs before digits := by
  refine ⟨located_of_numberedTail?, ?_⟩
  rintro ⟨hbefore, hdigits, rfl⟩
  exact numberedTail?_append hbefore hdigits

theorem numberedTail?_eq_none_iff :
    numberedTail? cs = none ↔ ∀ before digits, ¬ Located cs before digits := by
  rw [Option.eq_none_iff_forall_ne_some, Prod.forall]
  exact forall₂_congr fun before digits => not_congr numberedTail?_eq_some_iff

/-! ## The fields -/

theorem locationFields_of_not_located (h : ∀ file line, ¬ Located cs file line) :
    locationFields cs = (cs, []) := by
  rw [locationFields, numberedTail?_eq_none_iff.mpr h]

theorem locationFields_of_located (h : Located cs file line)
    (hfile : ∀ before digits, ¬ Located file before digits) :
    locationFields cs = (file, line) := by
  rw [locationFields, numberedTail?_eq_some_iff.mpr h]
  dsimp only
  rw [numberedTail?_eq_none_iff.mpr hfile]

/-- The reading with the shortest file is taken. -/
theorem Reading.locationFields_eq (h : Reading cs file line)
    (hmin : ∀ file' line', Reading cs file' line' → file.length ≤ file'.length) :
    locationFields cs = (file, line) := by
  cases h with
  | line hline =>
      refine locationFields_of_located hline fun before digits hbefore => ?_
      have hle := hmin before digits (.column hline hbefore)
      exact absurd hbefore.length_lt (Nat.not_lt_of_le hle)
  | column hcolumn hline =>
      rw [locationFields, numberedTail?_eq_some_iff.mpr hcolumn]
      dsimp only
      rw [numberedTail?_eq_some_iff.mpr hline]

/-! ## Splitting -/

theorem splitLocation_eq (h : locationFields cs = (file, line)) :
    splitLocation cs =
      if line.length ≤ maxDigits then .ok (file, digitsValue line) else .error ⟨line.length⟩ := by
  rw [splitLocation, h]
  dsimp only
  rw [Text.readDigits]
  by_cases hlen : line.length ≤ maxDigits
  · rw [if_pos hlen, if_pos hlen]
  · rw [if_neg hlen, if_neg hlen]

/-- **Locations are split from the right.** `file:line:column` gives the file and the line, whatever
the file is; so does `file:line`, unless the file itself ends in a number after a colon, which then
is the line. A text of neither form is a file without a line. In each case the shortest file wins
among all readings of the text, and a line of too many digits is refused. -/
theorem splitLocation_from_right :
    (∀ file line column, file ≠ [] → IsNumber line → IsNumber column → line.length ≤ maxDigits →
      splitLocation (file ++ ':' :: line ++ ':' :: column) = .ok (file, digitsValue line)) ∧
    (∀ file line, file ≠ [] → IsNumber line → line.length ≤ maxDigits →
      (∀ before digits, ¬ Located file before digits) →
      splitLocation (file ++ ':' :: line) = .ok (file, digitsValue line)) ∧
    (∀ cs, (∀ file line, ¬ Located cs file line) → splitLocation cs = .ok (cs, 0)) ∧
    ∀ cs file line, Reading cs file line →
      (∀ file' line', Reading cs file' line' → file.length ≤ file'.length) →
      splitLocation cs =
        if line.length ≤ maxDigits then .ok (file, digitsValue line)
        else .error ⟨line.length⟩ := by
  refine ⟨fun file line column hfile hline hcolumn hlen => ?_,
    fun file line hfile hline hlen hne => ?_, fun cs h => ?_, fun cs file line h hmin => ?_⟩
  · rw [splitLocation_eq (locationFields_append hfile hline hcolumn), if_pos hlen]
  · rw [splitLocation_eq (locationFields_of_located ⟨hfile, hline, rfl⟩ hne), if_pos hlen]
  · rw [splitLocation_eq (locationFields_of_not_located h)]
    exact if_pos (Nat.zero_le maxDigits)
  · exact splitLocation_eq (h.locationFields_eq hmin)

/-- A file with a drive and a number of its own, and a drive alone. -/
theorem splitLocation_from_right_drive :
    splitLocation ("C:\\lamp:7".toList ++ ':' :: ['3'] ++ ':' :: ['9']) =
      .ok ("C:\\lamp:7".toList, 3) ∧
    splitLocation ("C:".toList ++ ':' :: ['3']) = .ok ("C:".toList, 3) ∧
    splitLocation ":3".toList = .ok (":3".toList, 0) := by
  have hthree : IsNumber ['3'] := ⟨List.cons_ne_nil _ _, List.forall_mem_singleton.mpr (by decide)⟩
  have hnine : IsNumber ['9'] := ⟨List.cons_ne_nil _ _, List.forall_mem_singleton.mpr (by decide)⟩
  obtain ⟨hcolumn, hline, hneither, -⟩ := splitLocation_from_right
  refine ⟨hcolumn _ _ _ (by decide) hthree hnine (by decide),
    hline _ _ (by decide) hthree (by decide) ?_, hneither _ ?_⟩
  · exact numberedTail?_eq_none_iff.mp (by decide +kernel)
  · exact numberedTail?_eq_none_iff.mp (by decide +kernel)

end SketchBuild.Diagnostic.Translator
