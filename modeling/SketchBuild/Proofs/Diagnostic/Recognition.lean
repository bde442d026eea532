import SketchBuild.Proofs.Diagnostic.Grammar
import SketchBuild.Proofs.Text.Lines

/-!
# What is recognised in an output

Each tool is read by the lines that count for it: error lines, relevant lines, headers and arrow
lines. Here these lines are described by their text, and an output is `Structured` if it has those
that make up a whole diagnostic. Otherwise the diagnostic has to show the output as it is.
-/

namespace SketchBuild.Diagnostic

open Text (gather isBlank trim IsFirstCut)

/-! ## The compiler -/

namespace Compiler

theorem errorLine?_eq_none_iff {l : List Char} : errorLine? l = none ↔ ¬ marker <:+: l := by
  rw [errorLine?, Option.map_eq_none_iff, Text.cut?_eq_none_iff]

theorem errorLine?_eq_some_iff {l location message : List Char} :
    errorLine? l = some (location, message) ↔
      ∃ before after, IsFirstCut marker l before after ∧ location = trim before ∧
        message = trim after := by
  rw [errorLine?, Option.map_eq_some_iff]
  constructor
  · rintro ⟨⟨before, after⟩, hcut, heq⟩
    cases heq
    exact ⟨before, after, Text.cut?_eq_some_iff.mp hcut, rfl, rfl⟩
  · rintro ⟨before, after, hcut, rfl, rfl⟩
    exact ⟨(before, after), Text.cut?_eq_some_iff.mpr hcut, rfl⟩

theorem errorLines_eq_nil_iff {raw : List Char} :
    errorLines raw = [] ↔ ∀ l ∈ Text.lines raw, ¬ marker <:+: l := by
  rw [errorLines, List.filterMap_eq_nil_iff]
  simp only [errorLine?_eq_none_iff]

end Compiler

/-! ## The uploader -/

namespace Uploader

/-- A line that mentions a failure, trimmed. -/
def relevant? (l : List Char) : Option (List Char) := (some (trim l)).filter isRelevant

theorem relevantLines_eq_gather (raw : List Char) : relevantLines raw = gather relevant? raw := by
  rw [relevantLines, ← List.filterMap_eq_filter, List.filterMap_map]
  rfl

theorem relevantLines_eq_nil_iff {raw : List Char} :
    relevantLines raw = [] ↔ ∀ l ∈ Text.lines raw, isRelevant (trim l) = false := by
  simp [relevantLines]

end Uploader

/-! ## The translator -/

namespace Translator

/-- A header. -/
def IsHeading (l : List Char) : Prop := ∃ tag message, IsHeader l tag message

/-- A line with an arrow that is not a header. -/
def IsPointing (l : List Char) : Prop := ¬ IsHeading l ∧ "-->".toList <:+: l

theorem header?_eq_none_iff_not_isHeading {l : List Char} : header? l = none ↔ ¬ IsHeading l := by
  rw [header?_eq_none_iff, IsHeading]
  simp only [not_exists]

theorem heading?_read (l : List Char) : (Line.read l).heading? = header? l := by
  rw [Line.read]
  cases header? l with
  | some p => rfl
  | none => cases arrow? l <;> cases context? l <;> rfl

theorem isArrow_read_iff {l : List Char} : (Line.read l).isArrow = true ↔ IsPointing l := by
  have harrow : "-->".toList <:+: l ↔ arrow? l ≠ none := by
    rw [Ne, arrow?_eq_none_iff, not_not]
  rw [IsPointing, ← header?_eq_none_iff_not_isHeading, harrow, Line.read]
  cases header? l with
  | some p => simp [Line.isArrow]
  | none =>
      cases arrow? l with
      | some location => simp [Line.isArrow]
      | none => cases context? l <;> simp [Line.isArrow]

/-- The first header is found in the text of the lines. -/
theorem firstHeader?_map_read (css : List (List Char)) :
    firstHeader? (css.map Line.read) = css.findSome? header? := by
  rw [firstHeader?_eq, List.findSome?_map]
  congr
  exact funext heading?_read

theorem firstHeader?_eq_none_iff {css : List (List Char)} :
    firstHeader? (css.map Line.read) = none ↔ ∀ l ∈ css, ¬ IsHeading l := by
  rw [firstHeader?_map_read, List.findSome?_eq_none_iff]
  simp only [header?_eq_none_iff_not_isHeading]

/-- Arrow lines, and no others, open blocks. -/
theorem blocks_eq_nil_iff {css : List (List Char)} :
    blocks (css.map Line.read) = [] ↔ ∀ l ∈ css, ¬ IsPointing l := by
  obtain ⟨before, sections, hcut⟩ := exists_isCut (css.map Line.read)
  rw [hcut.blocks_eq, List.map_eq_nil_iff, hcut.eq_nil_iff]
  simp [← isArrow_read_iff]

theorem frames_eq_nil_iff {origin : Option String} {bs : List Block} {fs : List Frame}
    (h : frames origin bs = .ok fs) : fs = [] ↔ bs = [] := by
  rw [frames_eq_mapM, mapM_eq_ok_iff] at h
  rw [← List.length_eq_zero_iff, ← h.length_eq, List.length_eq_zero_iff]

end Translator

/-! ## Every tool -/

/-- The lines that make up a diagnostic are there: an error line of the compiler, a relevant line of
the uploader, or a header and an arrow line of the translator. -/
def Structured (raw : List Char) : Stage → Prop
  | .translate => (∃ l ∈ Text.lines raw, Translator.IsHeading l) ∧
      ∃ l ∈ Text.lines raw, Translator.IsPointing l
  | .compile => ∃ l ∈ Text.lines raw, Compiler.marker <:+: l
  | .upload => ∃ l ∈ Text.lines raw, Uploader.isRelevant (trim l) = true

theorem structured_compile_iff {raw : List Char} :
    Structured raw .compile ↔ Compiler.errorLines raw ≠ [] := by
  rw [Ne, Compiler.errorLines_eq_nil_iff]
  simp [Structured]

theorem structured_upload_iff {raw : List Char} :
    Structured raw .upload ↔ Uploader.relevantLines raw ≠ [] := by
  rw [Ne, Uploader.relevantLines_eq_nil_iff]
  simp [Structured]

theorem structured_translate_iff {raw : List Char} :
    Structured raw .translate ↔
      Translator.firstHeader? ((Text.lines raw).map Translator.Line.read) ≠ none ∧
        Translator.blocks ((Text.lines raw).map Translator.Line.read) ≠ [] := by
  rw [Ne, Ne, Translator.firstHeader?_eq_none_iff, Translator.blocks_eq_nil_iff]
  simp [Structured]

end SketchBuild.Diagnostic
