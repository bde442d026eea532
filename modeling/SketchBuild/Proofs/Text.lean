import Mathlib.Algebra.Group.Nat.Defs
import Mathlib.Data.List.TakeWhile
import SketchBuild.Text.Digit
import SketchBuild.Text.Lines
import SketchBuild.Text.Search

/-!
# Reading texts back

The ways in which a text is taken apart, each told by what it gives back on a text that was put
together from parts:

    cut?_eq_some_iff : cut? sep cs = some (before, after) ↔ IsFirstCut sep cs before after
    lines_intercalate : lines (['\n'].intercalate ls) = ls
    digitsValue_toDigits : digitsValue (Nat.toDigits 10 n) = n

Lines that are joined must have no breaks, and the last of them must not be empty.
-/

namespace SketchBuild.Text

/-! ## Cutting at a separator -/

/-- `cs` is `before`, then `sep`, then `after`, and `sep` occurs no earlier. -/
def IsFirstCut (sep cs before after : List Char) : Prop :=
  cs = before ++ sep ++ after ∧ ∀ b a, cs = b ++ sep ++ a → before.length ≤ b.length

theorem IsFirstCut.unique {sep cs before after before' after' : List Char}
    (h : IsFirstCut sep cs before after) (h' : IsFirstCut sep cs before' after') :
    before = before' ∧ after = after' := by
  obtain ⟨hcs, hmin⟩ := h
  obtain ⟨hcs', hmin'⟩ := h'
  have hlen : before.length = before'.length :=
    Nat.le_antisymm (hmin _ _ hcs') (hmin' _ _ hcs)
  have heq : before ++ (sep ++ after) = before' ++ (sep ++ after') := by
    rw [← List.append_assoc, ← List.append_assoc, ← hcs, ← hcs']
  obtain ⟨hbefore, hrest⟩ := List.append_inj heq hlen
  exact ⟨hbefore, List.append_cancel_left hrest⟩

theorem cut?_eq_none_iff {sep cs : List Char} : cut? sep cs = none ↔ ¬ sep <:+: cs := by
  induction cs with
  | nil => simp [cut?]
  | cons c cs ih =>
      rw [cut?, List.infix_cons_iff]
      by_cases hp : sep.isPrefixOf (c :: cs) = true
      · simp [hp, List.isPrefixOf_iff_prefix.mp hp]
      · have hp' : ¬ sep <+: c :: cs := fun h => hp (List.isPrefixOf_iff_prefix.mpr h)
        simp [hp, hp', ih]

theorem isFirstCut_of_cut? {sep cs before after : List Char}
    (h : cut? sep cs = some (before, after)) : IsFirstCut sep cs before after := by
  induction cs generalizing before with
  | nil =>
      rw [cut?] at h
      split at h
      · next hsep =>
          cases h
          exact ⟨by simpa using hsep.symm, fun _ _ _ => Nat.zero_le _⟩
      · cases h
  | cons c cs ih =>
      rw [cut?] at h
      split at h
      · next hp =>
          cases h
          obtain ⟨rest, hrest⟩ := List.isPrefixOf_iff_prefix.mp hp
          refine ⟨?_, fun _ _ _ => Nat.zero_le _⟩
          rw [← hrest]
          simp
      · next hp =>
          obtain ⟨⟨b, a⟩, hcut, heq⟩ := Option.map_eq_some_iff.mp h
          cases heq
          obtain ⟨hcs, hmin⟩ := ih hcut
          refine ⟨by simp [hcs], fun b' a' h' => ?_⟩
          -- an occurrence at the very start was ruled out, any other is one in the tail
          cases b' with
          | nil => exact absurd (List.isPrefixOf_iff_prefix.mpr ⟨a', h'.symm⟩) hp
          | cons d b' =>
              have htail : cs = b' ++ sep ++ a' := (List.cons.inj h').2
              simpa using hmin b' a' htail

/-- **A text is cut at the first occurrence of the separator.** -/
theorem cut?_eq_some_iff {sep cs before after : List Char} :
    cut? sep cs = some (before, after) ↔ IsFirstCut sep cs before after := by
  refine ⟨isFirstCut_of_cut?, fun h => ?_⟩
  cases hcut : cut? sep cs with
  | none => exact absurd ⟨before, after, h.1.symm⟩ (cut?_eq_none_iff.mp hcut)
  | some p =>
      obtain ⟨hb, ha⟩ := h.unique (isFirstCut_of_cut? hcut)
      rw [hb, ha]

/-- A separator is found behind a text that lacks its first character. -/
theorem isFirstCut_of_not_mem {c : Char} {sep before : List Char} (h : c ∉ before)
    (after : List Char) : IsFirstCut (c :: sep) (before ++ c :: sep ++ after) before after := by
  refine ⟨rfl, fun b a hcut => ?_⟩
  induction before generalizing b with
  | nil => exact Nat.zero_le _
  | cons x before ih =>
      cases b with
      | nil =>
          obtain ⟨rfl, -⟩ := List.cons.inj hcut
          exact absurd List.mem_cons_self h
      | cons y b =>
          have hb := ih (fun hc => h (List.mem_cons_of_mem x hc)) b (List.cons.inj hcut).2
          exact Nat.succ_le_succ hb

/-! ## Trimming -/

theorem trim_cons_of_blank {c : Char} (h : isBlank c = true) (cs : List Char) :
    trim (c :: cs) = trim cs := by
  rw [trim, trim, trimLeftBy, trimLeftBy, List.dropWhile_cons_of_pos h]

/-- A text that neither starts nor ends with a blank has nothing to trim. -/
theorem trim_eq_self {cs : List Char} (hhead : ∀ c, cs.head? = some c → isBlank c = false)
    (hlast : ∀ c, cs.getLast? = some c → isBlank c = false) : trim cs = cs := by
  have hdrop : ∀ {ds : List Char}, (∀ c, ds.head? = some c → isBlank c = false) →
      ds.dropWhile isBlank = ds := by
    intro ds hds
    cases ds with
    | nil => rfl
    | cons d ds => rw [List.dropWhile_cons_of_neg (by simp [hds d rfl])]
  rw [trim, trimLeftBy, hdrop hhead, trimRight, trimRightBy, hdrop, List.reverse_reverse]
  intro c hc
  rw [List.head?_reverse] at hc
  exact hlast c hc

/-- What is left after trimming starts with no blank. -/
theorem isBlank_head_of_trim {cs : List Char} (h : trim cs = cs) {c : Char}
    (hc : cs.head? = some c) : isBlank c = false := by
  cases hd : cs.dropWhile isBlank with
  | nil =>
      rw [trim, trimLeftBy, hd] at h
      rw [← h] at hc
      cases hc
  | cons d ds =>
      -- trimming on the right takes nothing from the front unless nothing is left
      have hdrop : isBlank d = false := by
        have := List.head?_dropWhile_not isBlank cs
        rw [hd] at this
        simpa using this
      have hlen : cs.length ≤ (cs.dropWhile isBlank).length := by
        have hr := ((cs.dropWhile isBlank).reverse.dropWhile_sublist isBlank).length_le
        rw [List.length_reverse] at hr
        have hl := congrArg List.length h
        rw [trim, trimLeftBy, trimRight, trimRightBy, List.length_reverse] at hl
        omega
      have heq : cs.dropWhile isBlank = cs := (List.dropWhile_sublist isBlank).eq_of_length_le hlen
      rw [heq] at hd
      rw [hd] at hc
      cases hc
      exact hdrop

/-! ## Lines -/

/-- No character of the text ends a line. -/
def Unbroken (cs : List Char) : Prop := ∀ c ∈ cs, isLineBreak c = false

instance (cs : List Char) : Decidable (Unbroken cs) :=
  List.decidableBAll (fun c => isLineBreak c = false) cs

theorem Unbroken.append {cs ds : List Char} (h : Unbroken cs) (h' : Unbroken ds) :
    Unbroken (cs ++ ds) := by
  intro c hc
  exact (List.mem_append.mp hc).elim (h c) (h' c)

theorem isLineBreak_of_not_isBlank {c : Char} (h : isBlank c = false) : isLineBreak c = false := by
  simp only [isBlank, isLineBreak, Bool.or_eq_false_iff, Bool.and_eq_false_iff,
    decide_eq_false_iff_not, beq_eq_false_iff_ne] at h ⊢
  omega

theorem lines_cons {c : Char} (h : isLineBreak c = false) (cs : List Char) :
    lines (c :: cs) = consField c (lines cs) := by
  have hc : c ≠ '\r' := by
    rintro rfl
    cases h
  rw [lines]
  · simp [h]
  · rintro _ rfl _
    exact hc rfl

theorem lines_append_newline {l : List Char} (h : Unbroken l) (cs : List Char) :
    lines (l ++ '\n' :: cs) = l :: lines cs := by
  induction l with
  | nil => simp [lines, isLineBreak]
  | cons c l ih =>
      rw [List.cons_append, lines_cons (h c List.mem_cons_self),
        ih fun d hd => h d (List.mem_cons_of_mem c hd)]
      rfl

theorem lines_of_unbroken {l : List Char} (h : Unbroken l) (hne : l ≠ []) : lines l = [l] := by
  induction l with
  | nil => exact absurd rfl hne
  | cons c l ih =>
      rw [lines_cons (h c List.mem_cons_self)]
      cases l with
      | nil => rfl
      | cons d l =>
          rw [ih (fun x hx => h x (List.mem_cons_of_mem c hx)) (List.cons_ne_nil d l)]
          rfl

/-- **Lines that were joined are read back.** Only an empty last line would be lost. -/
theorem lines_intercalate {ls : List (List Char)} (h : ∀ l ∈ ls, Unbroken l)
    (hlast : ls.getLast? ≠ some []) : lines (['\n'].intercalate ls) = ls := by
  induction ls with
  | nil => rfl
  | cons l ls ih =>
      have hl : Unbroken l := h l List.mem_cons_self
      cases ls with
      | nil =>
          rw [List.intercalate_singleton]
          refine lines_of_unbroken hl ?_
          rintro rfl
          exact hlast rfl
      | cons m ls =>
          rw [List.intercalate_cons_cons, List.append_assoc, List.singleton_append,
            lines_append_newline hl, ih (fun x hx => h x (List.mem_cons_of_mem l hx))]
          rwa [List.getLast?_cons_cons] at hlast

/-- A line feed after the last line changes nothing. -/
theorem lines_intercalate_newline {ls : List (List Char)} (h : ∀ l ∈ ls, Unbroken l)
    (hne : ls ≠ []) : lines (['\n'].intercalate ls ++ ['\n']) = ls := by
  induction ls with
  | nil => exact absurd rfl hne
  | cons l ls ih =>
      have hl : Unbroken l := h l List.mem_cons_self
      cases ls with
      | nil =>
          rw [List.intercalate_singleton, lines_append_newline hl]
          rfl
      | cons m ls =>
          rw [List.intercalate_cons_cons, List.append_assoc, List.append_assoc,
            List.singleton_append, lines_append_newline hl,
            ih (fun x hx => h x (List.mem_cons_of_mem l hx)) (List.cons_ne_nil m ls)]

/-! ## Digits -/

theorem isDigit_eq_true_iff {c : Char} :
    isDigit c = true ↔ ∃ z ∈ zeros, z ≤ c.toNat ∧ c.toNat < z + 10 := by
  simp [isDigit, digitValue?, List.findSome?_isSome_iff]

/-- No digit of any script is blank. -/
theorem isBlank_of_isDigit {c : Char} (h : isDigit c = true) : isBlank c = false := by
  have hall : ∀ z ∈ zeros, ∀ k < 10, isBlank (Char.ofNat (z + k)) = false := by decide +kernel
  obtain ⟨z, hz, hle, hlt⟩ := isDigit_eq_true_iff.mp h
  have hc := hall z hz (c.toNat - z) (by omega)
  rwa [Nat.add_sub_cancel' hle, Char.ofNat_toNat] at hc

theorem digitValue?_of_ascii {c : Char} (h : c.isDigit = true) :
    digitValue? c = some (c.toNat - 48) := by
  have hc : 48 ≤ c.toNat ∧ c.toNat < 48 + 10 := by
    rw [Char.isDigit, Bool.and_eq_true, decide_eq_true_eq, decide_eq_true_eq] at h
    exact ⟨h.1, Nat.lt_succ_of_le h.2⟩
  simp [digitValue?, zeros, hc]

theorem isDigit_of_mem_toDigits {n : Nat} {c : Char} (h : c ∈ Nat.toDigits 10 n) :
    isDigit c = true := by
  have hc := Nat.isDigit_of_mem_toDigits (by decide) (by decide) h
  rw [isDigit, digitValue?_of_ascii hc]
  rfl

theorem digitsValue_toDigits (n : Nat) : digitsValue (Nat.toDigits 10 n) = n := by
  have hval : ∀ (cs : List Char) (m : Nat), (∀ c ∈ cs, c.isDigit = true) →
      cs.foldl (fun n c => 10 * n + (digitValue? c).getD 0) m = Nat.ofDigitChars 10 cs m := by
    intro cs
    induction cs with
    | nil => simp
    | cons c cs ih =>
        intro m h
        rw [List.foldl_cons, Nat.ofDigitChars_cons, digitValue?_of_ascii (h c List.mem_cons_self)]
        exact ih _ fun d hd => h d (List.mem_cons_of_mem c hd)
  rw [digitsValue, hval _ _ fun c hc => Nat.isDigit_of_mem_toDigits (by decide) (by decide) hc,
    Nat.ofDigitChars_ten_toDigits]

theorem length_toDigits_le_maxDigits {n : Nat} :
    (Nat.toDigits 10 n).length ≤ maxDigits ↔ n < 10 ^ maxDigits :=
  Nat.length_toDigits_le_iff (by decide) (by decide)

theorem lt_pow_maxDigits {n : Nat} (h : n ≤ maxDigits) : n < 10 ^ maxDigits :=
  Nat.lt_of_lt_of_le (Nat.lt_pow_self (by decide)) (Nat.pow_le_pow_right (by decide) h)

/-- A number that was written is read back if it is not too long. -/
theorem readDigits_toDigits (n : Nat) :
    readDigits (Nat.toDigits 10 n) =
      if n < 10 ^ maxDigits then .ok n else .error ⟨(Nat.toDigits 10 n).length⟩ := by
  simp only [readDigits, length_toDigits_le_maxDigits, digitsValue_toDigits]

end SketchBuild.Text
