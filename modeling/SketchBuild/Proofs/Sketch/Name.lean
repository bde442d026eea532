import SketchBuild.Sketch.Name

/-! # Sketch names are identifiers

Whatever a project is called, its sketch name is an identifier. So it holds no dot and no slash, and
is never the name of another directory that a build makes or passes through. -/

namespace SketchBuild.Sketch

/-- A letter or underscore, then letters, digits and underscores. -/
def IsIdentifier (s : String) : Prop :=
  ∃ c cs, s.toList = c :: cs ∧ isNameStart c = true ∧
    ∀ x ∈ cs, (isNameStart x || x.isDigit) = true

/-- Every character that is written may stand in an identifier. -/
theorem isNamePart_of_mem_cleanAfter {last : Option Char} {cs : List Char} {x : Char}
    (h : x ∈ cleanAfter last cs) : (isNameStart x || x.isDigit) = true := by
  induction cs generalizing last with
  | nil => cases h
  | cons c cs ih =>
      rw [cleanAfter] at h
      split at h
      · next hkeep =>
          rcases List.mem_cons.mp h with rfl | h
          · simp only [Bool.or_eq_true, Bool.and_eq_true] at hkeep ⊢
            exact hkeep.imp_right And.left
          · exact ih h
      · split at h
        · rcases List.mem_cons.mp h with rfl | h
          · decide
          · exact ih h
        · exact ih h

/-- The first character that is written is no digit. -/
theorem isNameStart_head_cleanAfter {cs rest : List Char} {c : Char}
    (h : cleanAfter none cs = c :: rest) : isNameStart c = true := by
  induction cs with
  | nil => cases h
  | cons d ds ih =>
      rw [cleanAfter] at h
      split at h
      · next hkeep =>
          cases h
          simpa using hkeep
      · exact ih (by simpa using h)

/-- What is left of a name is an identifier, if anything is left. -/
theorem isIdentifier_cleanName {name : String} (h : cleanName name ≠ "") :
    IsIdentifier (cleanName name) := by
  cases hclean : cleanAfter none name.toList with
  | nil => exact absurd (by simp [cleanName, hclean]) h
  | cons c cs =>
      refine ⟨c, cs, by simp [cleanName, hclean], isNameStart_head_cleanAfter hclean, ?_⟩
      intro x hx
      have hmem : x ∈ cleanAfter none name.toList := by
        rw [hclean]
        exact List.mem_cons_of_mem c hx
      exact isNamePart_of_mem_cleanAfter hmem

/-- **The sketch name of any project is an identifier.** -/
theorem isIdentifier_nameFor (project : String) : IsIdentifier (nameFor project) := by
  rw [nameFor]
  by_cases hempty : cleanName project = ""
  · rw [if_pos (by simpa using hempty)]
    exact ⟨'s', ['k', 'e', 't', 'c', 'h'], rfl, by decide, List.all_eq_true.mp (by decide)⟩
  · rw [if_neg (by simpa using hempty)]
    exact isIdentifier_cleanName hempty

/-- An identifier is no name that starts with a dot. -/
theorem IsIdentifier.ne_dot {s t : String} (h : IsIdentifier s) (ht : t.toList.head? = some '.') :
    s ≠ t := by
  rintro rfl
  obtain ⟨c, cs, hs, hc, -⟩ := h
  rw [hs] at ht
  cases ht
  revert hc
  decide

theorem IsIdentifier.ne_empty {s : String} (h : IsIdentifier s) : s ≠ "" := by
  rintro rfl
  obtain ⟨c, cs, hs, -⟩ := h
  cases hs

end SketchBuild.Sketch
