/-!
# Searching a text

`cut?` finds the first occurrence of a separator and returns what stands before and after it. The
tests on strings are those on their lists of characters.
-/

namespace SketchBuild.Text

/-- The parts before and after the first occurrence of `sep`, if there is one. -/
def cut? (sep : List Char) : List Char → Option (List Char × List Char)
  | [] => if sep.isEmpty then some ([], []) else none
  | c :: cs =>
    if sep.isPrefixOf (c :: cs) then some ([], (c :: cs).drop sep.length)
    else (cut? sep cs).map fun (before, after) => (c :: before, after)

/-- Whether a string starts with another. -/
def startsWith (s start : String) : Bool := start.toList.isPrefixOf s.toList

/-- Whether a string ends with another. -/
def endsWith (s ending : String) : Bool := ending.toList.isSuffixOf s.toList

theorem endsWith_append (s ending : String) : endsWith (s ++ ending) ending = true := by
  simp [endsWith]

/-- A text that ends with a longer one is another text. -/
theorem ne_of_endsWith {s t ending : String} (h : endsWith s ending = true)
    (hlen : t.length < ending.length) : s ≠ t := by
  rintro rfl
  have hle := (List.isSuffixOf_iff_suffix.mp h).length_le
  rw [String.length_toList, String.length_toList] at hle
  exact Nat.not_lt_of_le hle hlen

/-- Whether `sep` occurs in the text. -/
def contains (sep cs : List Char) : Bool := (cut? sep cs).isSome

end SketchBuild.Text
