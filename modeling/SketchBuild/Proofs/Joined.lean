import SketchBuild.Proofs.Diagnostic.ErrorLines
import SketchBuild.Translator

/-!
# Outputs that are joined

What is read line by line in two outputs is read in the same order in both of them joined by a line
feed. No line is lost, read twice or mixed up with its neighbour, whatever the first output ends
with and the second starts with (`joined_outputs`). The two streams of a program are joined in this
way, except that the first is trimmed before (`Translator.warnings_combined`).
-/

namespace SketchBuild

open Text (gather isBlank trim)

/-! ## Blanks and words -/

namespace Text

theorem contains_eq_true_iff {sep cs : List Char} : contains sep cs = true ↔ sep <:+: cs := by
  rw [contains, Option.isSome_iff_ne_none, Ne, cut?_eq_none_iff, not_not]

/-- A character that is not part of a word does not complete it. -/
theorem contains_concat_of_not_mem {word : List Char} (hne : word ≠ []) {c : Char} (h : c ∉ word)
    (cs : List Char) : contains word (cs ++ [c]) = contains word cs := by
  have hsuffix : ¬ word <:+ cs ++ [c] := by
    rw [List.suffix_concat_iff]
    rintro (hnil | ⟨before, rfl, -⟩)
    · exact hne hnil
    · exact h (by simp)
  rw [Bool.eq_iff_iff, contains_eq_true_iff, contains_eq_true_iff, List.infix_concat_iff,
    or_iff_right hsuffix]

/-- Blanks have no case. -/
theorem lowerChar_of_isBlank {c : Char} (h : isBlank c = true) : lowerChar c = [c] := by
  have hupper : ¬ (c.val ≥ 'A'.val ∧ c.val ≤ 'Z'.val) := by
    rintro ⟨hle, hge⟩
    have hfrom : 65 ≤ c.toNat := UInt32.le_iff_toNat_le.mp hle
    have hto : c.toNat ≤ 90 := UInt32.le_iff_toNat_le.mp hge
    simp only [isBlank, Bool.or_eq_true, Bool.and_eq_true, decide_eq_true_eq, beq_iff_eq] at h
    omega
  have hlower : c.toLower = c := dif_neg hupper
  rw [lowerChar, if_neg (by rintro rfl; cases h), if_neg (by rintro rfl; cases h), hlower]

theorem lower_concat_of_isBlank {c : Char} (h : isBlank c = true) (cs : List Char) :
    lower (cs ++ [c]) = lower cs ++ [c] := by
  simp [lower, lowerChar_of_isBlank h]

end Text

/-! ## Lines that mention a word -/

namespace Translator

/-- A line that mentions a word, trimmed. -/
def mention? (word l : List Char) : Option String :=
  if Text.contains word (Text.lower l) then some (String.ofList (trim l)) else none

theorem linesMentioning_eq_gather (word text : String) :
    linesMentioning word text = gather (mention? word.toList) text.toList := by
  rw [linesMentioning, ← List.filterMap_eq_map, List.filterMap_filter]
  rfl

theorem mention?_nil {word : List Char} (hne : word ≠ []) : mention? word [] = none := by
  obtain ⟨c, cs, rfl⟩ := List.exists_cons_of_ne_nil hne
  rfl

/-- A blank at the end of a line does not change what it mentions. -/
theorem mention?_concat_of_isBlank {word : List Char} (hne : word ≠ [])
    (hword : ∀ c ∈ word, isBlank c = false) (l : List Char) (c : Char) (hc : isBlank c = true) :
    mention? word (l ++ [c]) = mention? word l := by
  have hmem : c ∉ word := by
    intro h
    rw [hword c h] at hc
    cases hc
  rw [mention?, mention?, Text.lower_concat_of_isBlank hc,
    Text.contains_concat_of_not_mem hne hmem, Text.trim_concat_of_blank hc]

theorem linesMentioning_append_newline {word : String} (hne : word.toList ≠ []) (a b : String) :
    linesMentioning word (a ++ "\n" ++ b) = linesMentioning word a ++ linesMentioning word b := by
  simp only [linesMentioning_eq_gather, String.toList_append, List.append_assoc]
  exact Text.gather_append_newline (mention?_nil hne) a.toList b.toList

theorem linesMentioning_stripRight {word : String} (hne : word.toList ≠ [])
    (hword : ∀ c ∈ word.toList, isBlank c = false) (text : String) :
    linesMentioning word (Text.stripRight text) = linesMentioning word text := by
  rw [linesMentioning_eq_gather, linesMentioning_eq_gather, Text.stripRight, String.toList_ofList]
  exact Text.gather_trimRight (mention?_nil hne) (mention?_concat_of_isBlank hne hword) text.toList

/-- **Both streams are read for warnings.** None is lost where the streams are joined. -/
theorem warnings_combined (o : Tool.Output) :
    warnings o.combined = warnings o.stdout ++ warnings o.stderr := by
  have hne : "warning".toList ≠ [] := by decide
  have hempty : warnings "" = [] := rfl
  rw [Tool.Output.combined]
  by_cases hout : o.stdout = ""
  · simp [hout, hempty]
  · by_cases herr : o.stderr = ""
    · simp [hout, herr, hempty]
    · have hword : ∀ c ∈ "warning".toList, isBlank c = false := by simp [isBlank]
      simp only [String.isEmpty_iff, hout, herr, if_false]
      rw [warnings, linesMentioning_append_newline hne, linesMentioning_stripRight hne hword]
      rfl

end Translator

/-! ## Diagnostics -/

namespace Diagnostic

/-- With an error line there is a frame for each of them, and nothing else. -/
theorem Compiler.frames_of_structured {raw : List Char} (h : Structured raw .compile)
    (origin : Option String) :
    (read origin raw).frames = (errorLines raw).map fun e => frame e.1 e.2 := by
  refine (frames_read origin raw).resolve_left ?_
  rintro ⟨hnil, -⟩
  exact structured_compile_iff.mp h hnil

theorem Uploader.message_of_structured {raw : List Char} (h : Structured raw .upload)
    (origin : Option String) :
    (read origin raw).message = "; ".intercalate ((relevantLines raw).map String.ofList) := by
  rw [read]
  split
  · next hnil => exact absurd hnil (structured_upload_iff.mp h)
  · rfl

theorem Uploader.relevantLines_append_newline (cs ds : List Char) :
    relevantLines (cs ++ '\n' :: ds) = relevantLines cs ++ relevantLines ds := by
  simp only [relevantLines_eq_gather]
  exact Text.gather_append_newline rfl cs ds

end Diagnostic

open Diagnostic in
/-- **Outputs that are joined are read one after the other.** This holds of the warnings and the
errors of the translator, of the frames of the compiler, where an output without an error line adds
none, and of the lines that make up the message of the uploader. -/
theorem joined_outputs (a b : String) (origin : Option String) :
    Translator.warnings (a ++ "\n" ++ b) = Translator.warnings a ++ Translator.warnings b ∧
    Translator.errors (a ++ "\n" ++ b) = Translator.errors a ++ Translator.errors b ∧
    (∃ ta tb t, normalize .compile origin a = .ok ta ∧ normalize .compile origin b = .ok tb ∧
      normalize .compile origin (a ++ "\n" ++ b) = .ok t ∧
      (Structured a.toList .compile → Structured b.toList .compile →
        t.frames = ta.frames ++ tb.frames) ∧
      (Structured a.toList .compile → ¬ Structured b.toList .compile → t.frames = ta.frames) ∧
      (¬ Structured a.toList .compile → Structured b.toList .compile → t.frames = tb.frames)) ∧
    (Structured a.toList .upload ∨ Structured b.toList .upload →
      ∃ t, normalize .upload origin (a ++ "\n" ++ b) = .ok t ∧
        t.message = "; ".intercalate
          ((Uploader.relevantLines a.toList ++ Uploader.relevantLines b.toList).map
            String.ofList)) := by
  have hjoin : (a ++ "\n" ++ b).toList = a.toList ++ '\n' :: b.toList := by simp
  have herrors := Compiler.errorLines_append_newline a.toList b.toList
  have hrelevant := Uploader.relevantLines_append_newline a.toList b.toList
  rw [← hjoin] at herrors hrelevant
  have hstructured : Structured a.toList .compile ∨ Structured b.toList .compile →
      Structured (a ++ "\n" ++ b).toList .compile := by
    simp only [structured_compile_iff, herrors, Ne, List.append_eq_nil_iff]
    exact not_and_or.mpr
  refine ⟨Translator.linesMentioning_append_newline (by decide) a b,
    Translator.linesMentioning_append_newline (by decide) a b,
    ⟨_, _, _, rfl, rfl, rfl, fun ha hb => ?_, fun ha hb => ?_, fun ha hb => ?_⟩, fun h => ?_⟩
  · rw [Compiler.frames_of_structured (hstructured (.inl ha)), herrors, List.map_append,
      Compiler.frames_of_structured ha, Compiler.frames_of_structured hb]
  · have hnil : Compiler.errorLines b.toList = [] := by simpa [structured_compile_iff] using hb
    rw [Compiler.frames_of_structured (hstructured (.inl ha)), herrors, hnil, List.append_nil,
      Compiler.frames_of_structured ha]
  · have hnil : Compiler.errorLines a.toList = [] := by simpa [structured_compile_iff] using ha
    rw [Compiler.frames_of_structured (hstructured (.inr hb)), herrors, hnil, List.nil_append,
      Compiler.frames_of_structured hb]
  · have hsome : Structured (a ++ "\n" ++ b).toList .upload := by
      simp only [structured_upload_iff, hrelevant, Ne, List.append_eq_nil_iff] at h ⊢
      exact not_and_or.mpr h
    exact ⟨_, rfl, by rw [Uploader.message_of_structured hsome, hrelevant]⟩

open Diagnostic in
/-- A carriage return and a line feed at the seam neither merge the lines nor double them. -/
theorem joined_outputs_sample :
    (∃ ta tb t, normalize .compile none "a.c:1: error: p\r" = .ok ta ∧
      normalize .compile none "\nb.c:2: error: q" = .ok tb ∧
      normalize .compile none ("a.c:1: error: p\r" ++ "\n" ++ "\nb.c:2: error: q") = .ok t ∧
      t.frames = ta.frames ++ tb.frames) ∧
    ∃ t, normalize .upload none ("a.c:1: error: p\r" ++ "\n" ++ "\nb.c:2: error: q") = .ok t ∧
      t.message = "a.c:1: error: p; b.c:2: error: q" := by
  obtain ⟨-, -, ⟨ta, tb, t, ha, hb, ht, hboth, -⟩, hupload⟩ :=
    joined_outputs "a.c:1: error: p\r" "\nb.c:2: error: q" none
  have hframes := hboth (structured_compile_iff.mpr (by decide +kernel))
    (structured_compile_iff.mpr (by decide +kernel))
  obtain ⟨t', ht', hmessage⟩ := hupload (.inl (structured_upload_iff.mpr (by decide +kernel)))
  exact ⟨⟨ta, tb, t, ha, hb, ht, hframes⟩, t', ht', hmessage.trans (by decide +kernel)⟩

end SketchBuild
