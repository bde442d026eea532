import SketchBuild.Proofs.Diagnostic.Report

/-!
# Which outputs can be read

Every output of the compiler and of the uploader is read. An output of the translator is read if and
only if the numbers in it are short enough: those of the lines that its locations name, and those
of the context lines below a location (`Translator.exists_read_iff`). What is read has a frame for
each place that the output names, and one frame if it names none.
-/

namespace SketchBuild.Diagnostic

open Text (isDigit maxDigits trim Unbroken)

namespace Translator

/-! ## Numbers that can be read -/

/-- The number of every location and of every context line below it has at most `maxDigits`
digits. -/
def NumbersFit (ls : List Line) : Prop :=
  ∀ before location after, ls = before ++ .arrow location :: after →
    (locationFields location).2.length ≤ maxDigits ∧
      ∀ number text, Line.context number text ∈ after → number.length ≤ maxDigits

def Block.NumbersFit (b : Block) : Prop :=
  (locationFields b.location).2.length ≤ maxDigits ∧ ∀ p ∈ b.context, p.1.length ≤ maxDigits

theorem numbersFit_cons_of_plain {l : Line} (h : l.isArrow = false) (ls : List Line) :
    NumbersFit (l :: ls) ↔ NumbersFit ls := by
  constructor
  · intro hfit before location after hls
    exact hfit (l :: before) location after (by rw [hls]; rfl)
  · intro hfit before location after hls
    cases before with
    | nil =>
        cases hls
        cases h
    | cons l' before =>
        cases hls
        exact hfit before location after rfl

theorem numbersFit_cons_arrow (location : List Char) (ls : List Line) :
    NumbersFit (.arrow location :: ls) ↔
      ((locationFields location).2.length ≤ maxDigits ∧
        ∀ number text, Line.context number text ∈ ls → number.length ≤ maxDigits) ∧
      NumbersFit ls := by
  constructor
  · intro hfit
    refine ⟨hfit [] location ls rfl, fun before location' after hls => ?_⟩
    exact hfit (.arrow location :: before) location' after (by rw [hls]; rfl)
  · rintro ⟨hfirst, hrest⟩ before location' after hls
    cases before with
    | nil =>
        cases hls
        exact hfirst
    | cons l before =>
        cases hls
        exact hrest before location' after rfl

/-- A context line belongs to a block unless it stands before the first arrow. -/
theorem mem_context_iff {ls : List Line} {number text : List Char} :
    Line.context number text ∈ ls ↔ (number, text) ∈ contextUpTo ls ∨
      ∃ b ∈ blocks ls, (number, text) ∈ b.context := by
  induction ls with
  | nil => simp [contextUpTo, blocks]
  | cons l ls ih => cases l <;> simp [contextUpTo, blocks, ih, or_assoc]

theorem forall_blocks_iff (ls : List Line) :
    (∀ b ∈ blocks ls, b.NumbersFit) ↔ NumbersFit ls := by
  induction ls with
  | nil => simp [blocks, NumbersFit]
  | cons l ls ih =>
      cases hl : l.isArrow with
      | false =>
          rw [numbersFit_cons_of_plain hl, ← ih]
          cases l <;> simp_all [blocks, Line.isArrow]
      | true =>
          obtain ⟨location, rfl⟩ : ∃ location, l = .arrow location := by
            cases l <;> simp_all [Line.isArrow]
          rw [numbersFit_cons_arrow, blocks, List.forall_mem_cons, ih]
          refine and_congr_left fun hfit => and_congr_right fun _ => ?_
          -- the lines beyond the next arrow belong to blocks that fit
          constructor
          · intro hctx number text hmem
            rcases mem_context_iff.mp hmem with hmem | ⟨b, hb, hmem⟩
            · exact hctx _ hmem
            · exact ((ih.mpr hfit) b hb).2 _ hmem
          · intro hall p hp
            exact hall p.1 p.2 (mem_context_iff.mpr (.inl hp))

/-! ## Blocks that can be read -/

theorem exists_forall₂_iff {α β : Type} {R : α → β → Prop} {as : List α} :
    (∃ bs, List.Forall₂ R as bs) ↔ ∀ a ∈ as, ∃ b, R a b := by
  induction as with
  | nil => simp
  | cons a as ih =>
      rw [List.forall_mem_cons, ← ih]
      simp only [List.forall₂_cons_left_iff]
      constructor
      · rintro ⟨_, b, bs, hab, hbs, rfl⟩
        exact ⟨⟨b, hab⟩, bs, hbs⟩
      · rintro ⟨⟨b, hab⟩, bs, hbs⟩
        exact ⟨b :: bs, b, bs, hab, hbs, rfl⟩

theorem exists_readDigits_iff {digits : List Char} :
    (∃ n, Text.readDigits digits = .ok n) ↔ digits.length ≤ maxDigits := by
  rw [Text.readDigits]
  by_cases h : digits.length ≤ maxDigits <;> simp [h]

theorem exists_frame_iff (origin : Option String) {b : Block} :
    (∃ f, b.frame origin = .ok f) ↔ b.NumbersFit := by
  have hcode : ∀ line, (∃ code, codeLines line b.context = .ok code) ↔
      ∀ p ∈ b.context, p.1.length ≤ maxDigits := by
    intro line
    simp only [codeLines_eq_mapM, mapM_eq_ok_iff, exists_forall₂_iff]
    refine forall₂_congr fun p _ => ?_
    rw [← exists_readDigits_iff, codeLine]
    cases Text.readDigits p.1 <;> simp
  rw [Block.frame_eq, Block.NumbersFit, ← exists_readDigits_iff, splitLocation]
  cases hdigits : Text.readDigits (locationFields b.location).2 with
  | error e => simp [hdigits]
  | ok line =>
      rw [← hcode line]
      cases hc : codeLines line b.context <;> simp [hdigits, hc]

/-- **An output of the translator is read if and only if its numbers can be.** -/
theorem exists_read_iff {origin : Option String} {raw : List Char} :
    (∃ t, read origin raw = .ok t) ↔ NumbersFit ((Text.lines raw).map Line.read) := by
  rw [← forall_blocks_iff]
  simp only [← exists_frame_iff origin]
  rw [← exists_forall₂_iff]
  simp only [← mapM_eq_ok_iff, ← frames_eq_mapM]
  rw [read_eq]
  cases frames origin (blocks ((Text.lines raw).map Line.read)) with
  | error e => simp
  | ok fs => cases fs <;> simp

theorem length_frames_of_read {origin : Option String} {raw : List Char} {t : Traceback}
    (h : read origin raw = .ok t) :
    t.frames.length = max 1 ((Text.lines raw).countP fun l => (Line.read l).isArrow) := by
  rw [(reads_of_read h).length_frames, List.countP_map]
  rfl

end Translator

/-! ## The other tools -/

theorem Compiler.length_frames_read (origin : Option String) (raw : List Char) :
    (read origin raw).frames.length =
      max 1 ((Text.lines raw).countP (Text.contains marker)) := by
  have hcount : (errorLines raw).length = (Text.lines raw).countP (Text.contains marker) := by
    rw [errorLines, List.length_filterMap_eq_countP]
    refine List.countP_congr fun l _ => ?_
    simp [errorLine?, Text.contains]
  rw [← hcount, read]
  cases errorLines raw with
  | nil => rfl
  | cons e es => simp

theorem Uploader.length_frames_read (origin : Option String) (raw : List Char) :
    (read origin raw).frames.length = 1 := by
  rw [read]
  split <;> rfl

/-! ## Every tool -/

/-- Whether a line of a tool's output names a place. -/
def namesPlace : Stage → List Char → Bool
  | .translate, l => (Translator.Line.read l).isArrow
  | .compile, l => Text.contains Compiler.marker l
  | .upload, _ => false

/-- **An output is read unless the translator wrote a number that is too long.** It may be missing,
which counts as empty. There is a frame for each line that names a place, and at least one. -/
theorem normalize_returns_iff (stage : Stage) (origin raw : Option String) :
    (∃ t, normalize stage origin (textOr "" raw) = .ok t ∧
      t.frames.length =
        max 1 ((Text.lines (textOr "" raw).toList).countP (namesPlace stage))) ↔
    (stage = .translate →
      Translator.NumbersFit ((Text.lines (textOr "" raw).toList).map Translator.Line.read)) := by
  generalize textOr "" raw = text
  cases stage with
  | translate =>
      constructor
      · rintro ⟨t, ht, -⟩ -
        exact Translator.exists_read_iff.mp ⟨t, ht⟩
      · intro hfit
        obtain ⟨t, ht⟩ := Translator.exists_read_iff.mpr (hfit rfl)
        exact ⟨t, ht, Translator.length_frames_of_read ht⟩
  | compile =>
      refine iff_of_true ⟨_, rfl, ?_⟩ nofun
      exact Compiler.length_frames_read origin text.toList
  | upload =>
      have hnone : (Text.lines text.toList).countP (namesPlace .upload) = 0 := by
        simp [List.countP_eq_zero, namesPlace]
      refine iff_of_true ⟨_, rfl, ?_⟩ nofun
      rw [hnone]
      exact Uploader.length_frames_read origin text.toList

namespace Translator

/-- A location with a line number of 4301 digits is not read. -/
theorem long_line_number_not_read :
    normalize .translate none ("--> a:" ++ String.ofList (List.replicate 4301 '1')) =
      .error ⟨4301⟩ := by
  generalize hones : List.replicate 4301 '1' = ones
  have hlength : ones.length = 4301 := by rw [← hones, List.length_replicate]
  have hdigit : ∀ c ∈ ones, isDigit c = true := by
    intro c hc
    rw [← hones] at hc
    rw [List.eq_of_mem_replicate hc]
    decide +kernel
  have hne : ones ≠ [] := List.ne_nil_of_length_pos (by omega)
  have hchars : ("--> a:" ++ String.ofList ones).toList =
      [] ++ "-->".toList ++ ' ' :: (['a'] ++ ':' :: ones) := by
    simp [String.toList_append]
  have htrim : trim (['a'] ++ ':' :: ones) = ['a'] ++ ':' :: ones :=
    trim_append_number (List.cons_ne_nil _ _) (by rintro c ⟨⟩; rfl) ⟨hne, hdigit⟩
  have hunbroken : Unbroken ([] ++ "-->".toList ++ ' ' :: (['a'] ++ ':' :: ones)) := by
    have hstart : Unbroken ("-->".toList ++ [' ', 'a', ':']) := by decide
    exact hstart.append (unbroken_of_isDigit hdigit)
  have hfields : locationFields (['a'] ++ ':' :: ones) = (['a'], ones) := by
    rw [locationFields, numberedTail?_append (List.cons_ne_nil _ _) ⟨hne, hdigit⟩]
    rfl
  have hsplit : splitLocation (['a'] ++ ':' :: ones) = .error ⟨4301⟩ := by
    rw [splitLocation, hfields]
    simp [Text.readDigits, maxDigits, hlength]
  have hread : Line.read ([] ++ "-->".toList ++ ' ' :: (['a'] ++ ':' :: ones)) =
      .arrow (['a'] ++ ':' :: ones) :=
    read_arrow (by simp) htrim (by simp)
  rw [normalize_translate, hchars, read_eq, Text.lines_of_unbroken hunbroken (by simp),
    List.map_singleton, hread]
  simp only [blocks, contextUpTo, frames, Block.frame_eq, hsplit]

end Translator

end SketchBuild.Diagnostic
