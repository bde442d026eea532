import SketchBuild.Proofs.Diagnostic.Recognition

/-!
# Diagnostics and line ends

A tool on another system ends its lines with a carriage return and a line feed. A diagnostic that is
made of recognised lines is the same for both kinds of ends, however many carriage returns the
output has already. One that shows the output as it is keeps the ends inside of it, so the law is
sharp:

    normalize_windowsBreaks_iff : the two are equal ↔ the output is `Structured`, or no line feed
      is shown, or a number in it is too long to be read
-/

namespace SketchBuild.Diagnostic

open Text (trim windowsBreaks)

/-- The trimmed text can be read off a traceback in which nothing was recognised. -/
theorem Traceback.fallback_eq_iff {stage : Stage} {file : String} {raw raw' : List Char}
    {message : Option String} :
    fallback stage file raw message = fallback stage file raw' message ↔ trim raw = trim raw' := by
  constructor
  · intro h
    have hframes := congrArg Traceback.frames h
    simpa [fallback, Frame.whole, String.ofList_inj] using hframes
  · intro h
    simp [fallback, h]

theorem Traceback.fallback_windowsBreaks_iff {stage : Stage} {file : String} {raw : List Char}
    {message : Option String} :
    fallback stage file (windowsBreaks raw) message = fallback stage file raw message ↔
      '\n' ∉ trim raw := by
  rw [fallback_eq_iff, Text.trim_windowsBreaks, Text.windowsBreaks_eq_self_iff]

/-! ## The compiler and the uploader -/

theorem Compiler.read_windowsBreaks_iff (origin : Option String) (raw : List Char) :
    read origin (windowsBreaks raw) = read origin raw ↔ errorLines raw ≠ [] ∨ '\n' ∉ trim raw := by
  have herrors : errorLines (windowsBreaks raw) = errorLines raw :=
    Text.gather_windowsBreaks rfl raw
  rw [read, read, herrors]
  cases errorLines raw with
  | nil => simp [Traceback.fallback_windowsBreaks_iff]
  | cons e es => simp

theorem Uploader.read_windowsBreaks_iff (origin : Option String) (raw : List Char) :
    read origin (windowsBreaks raw) = read origin raw ↔
      relevantLines raw ≠ [] ∨ '\n' ∉ trim raw := by
  have hrelevant : relevantLines (windowsBreaks raw) = relevantLines raw := by
    rw [relevantLines_eq_gather, relevantLines_eq_gather, Text.gather_windowsBreaks rfl]
  rw [read, read, hrelevant]
  cases relevantLines raw with
  | nil => simp [Traceback.fallback_windowsBreaks_iff]
  | cons l ls => simp

/-! ## The translator -/

namespace Translator

/-- A line that counts. -/
def Line.part? : Line → Option Line
  | .noise => none
  | l => some l

theorem firstHeader?_filterMap_part? (ls : List Line) :
    firstHeader? (ls.filterMap Line.part?) = firstHeader? ls := by
  induction ls with
  | nil => rfl
  | cons l ls ih => cases l <;> simp [Line.part?, List.filterMap_cons, firstHeader?, ih]

theorem contextUpTo_filterMap_part? (ls : List Line) :
    contextUpTo (ls.filterMap Line.part?) = contextUpTo ls := by
  induction ls with
  | nil => rfl
  | cons l ls ih => cases l <;> simp [Line.part?, List.filterMap_cons, contextUpTo, ih]

theorem blocks_filterMap_part? (ls : List Line) :
    blocks (ls.filterMap Line.part?) = blocks ls := by
  induction ls with
  | nil => rfl
  | cons l ls ih =>
      cases l <;>
        simp [Line.part?, List.filterMap_cons, blocks, contextUpTo_filterMap_part?, ih]

/-- The lines that count are the same for both kinds of line ends. -/
theorem parts_windowsBreaks (raw : List Char) :
    ((Text.lines (windowsBreaks raw)).map Line.read).filterMap Line.part? =
      ((Text.lines raw).map Line.read).filterMap Line.part? := by
  rw [List.filterMap_map, List.filterMap_map]
  exact Text.gather_windowsBreaks rfl raw

theorem read_windowsBreaks_iff (origin : Option String) (raw : List Char) :
    read origin (windowsBreaks raw) = read origin raw ↔
      (firstHeader? ((Text.lines raw).map Line.read) ≠ none ∧
        blocks ((Text.lines raw).map Line.read) ≠ []) ∨
      '\n' ∉ trim raw ∨ ∃ e, read origin raw = .error e := by
  have hheader := congrArg firstHeader? (parts_windowsBreaks raw)
  have hblocks := congrArg blocks (parts_windowsBreaks raw)
  rw [firstHeader?_filterMap_part?, firstHeader?_filterMap_part?] at hheader
  rw [blocks_filterMap_part?, blocks_filterMap_part?] at hblocks
  simp only [read_eq, hheader, hblocks]
  cases hframes : frames origin (blocks ((Text.lines raw).map Line.read)) with
  | error e => simp
  | ok fs =>
      have hnil := frames_eq_nil_iff hframes
      cases fs with
      | nil => simp [hnil.mp rfl, Traceback.fallback_windowsBreaks_iff]
      | cons f fs =>
          have hne : blocks ((Text.lines raw).map Line.read) ≠ [] := by simp [← hnil]
          -- without a header, the message is the text
          cases firstHeader? ((Text.lines raw).map Line.read) with
          | none =>
              simp [Text.trim_windowsBreaks, String.ofList_inj, Text.windowsBreaks_eq_self_iff]
          | some p => simp [hne]

end Translator

/-! ## Every tool -/

/-- **Which diagnostics do not depend on the line ends.** Written with the ends of another system,
an output gives the same diagnostic, or fails in the same way, if the lines that make one up are
there. The only others are those in which no line feed would be shown and those with a number that
is too long to be read. -/
theorem normalize_windowsBreaks_iff (stage : Stage) (origin : Option String) (raw : String) :
    normalize stage origin (String.ofList (windowsBreaks raw.toList)) =
        normalize stage origin raw ↔
      Structured raw.toList stage ∨ '\n' ∉ trim raw.toList ∨
        ∃ e, normalize stage origin raw = .error e := by
  cases stage with
  | translate =>
      rw [structured_translate_iff]
      simp only [normalize, String.toList_ofList]
      exact Translator.read_windowsBreaks_iff origin raw.toList
  | compile =>
      rw [structured_compile_iff]
      simpa [normalize] using Compiler.read_windowsBreaks_iff origin raw.toList
  | upload =>
      rw [structured_upload_iff]
      simpa [normalize] using Uploader.read_windowsBreaks_iff origin raw.toList

end SketchBuild.Diagnostic
