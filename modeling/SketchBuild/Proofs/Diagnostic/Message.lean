import SketchBuild.Proofs.Diagnostic.Recognition

/-!
# Empty messages

A message is empty only where a tool left it empty: in the first error line of the compiler, or in
the first header of the translator if a location follows or stands before it. A header that is
missing is not an empty one: the text stands in for it. Where nothing was recognised, and in every
output of the uploader, there is a message:

    normalize_message_eq_empty_iff : t.message = "" ↔ …
-/

namespace SketchBuild.Diagnostic

open Text (isBlank trim IsFirstCut)

/-- `l` is the first of the lines that satisfy `p`. -/
def IsFirst (p : List Char → Prop) (ls : List (List Char)) (l : List Char) : Prop :=
  p l ∧ ∃ before after, ls = before ++ l :: after ∧ ∀ m ∈ before, ¬ p m

/-- The first line in which something is found is the first with the property that finds it. -/
theorem findSome?_eq_some_iff_isFirst {α : Type} {p : List Char → Prop}
    {f : List Char → Option α} (hp : ∀ l, f l = none ↔ ¬ p l) {ls : List (List Char)} {a : α} :
    ls.findSome? f = some a ↔ ∃ l, IsFirst p ls l ∧ f l = some a := by
  rw [List.findSome?_eq_some_iff]
  constructor
  · rintro ⟨before, l, after, rfl, hl, hbefore⟩
    have hpl : p l := by
      by_contra hno
      rw [(hp l).mpr hno] at hl
      cases hl
    exact ⟨l, ⟨hpl, before, after, rfl, fun m hm => (hp m).mp (hbefore m hm)⟩, hl⟩
  · rintro ⟨l, ⟨-, before, after, rfl, hbefore⟩, hl⟩
    exact ⟨before, l, after, rfl, hl, fun m hm => (hp m).mpr (hbefore m hm)⟩

theorem textOr_ne_empty {default : String} (h : default ≠ "") (s : Option String) :
    textOr default s ≠ "" := by
  cases s with
  | none => exact h
  | some s => by_cases hs : s = "" <;> simp [textOr, hs, h]

/-- Where nothing was recognised, there is a message. -/
theorem Traceback.fallback_message_ne_empty (stage : Stage) (file : String) (raw : List Char)
    (message : Option String) : (fallback stage file raw message).message ≠ "" := by
  have hdefault : stage.defaultMessage ≠ "" := by cases stage <;> decide
  exact textOr_ne_empty (textOr_ne_empty hdefault _) _

/-! ## The compiler -/

/-- Nothing but blanks stands behind the marker of the first error line. -/
def Compiler.LeftEmpty (raw : List Char) : Prop :=
  ∃ l before after, IsFirst (marker <:+: ·) (Text.lines raw) l ∧ IsFirstCut marker l before after ∧
    ∀ c ∈ after, isBlank c = true

theorem Compiler.message_eq_empty_iff (origin : Option String) (raw : List Char) :
    (read origin raw).message = "" ↔ LeftEmpty raw := by
  have hfirst : (∃ location, (errorLines raw).head? = some (location, [])) ↔ LeftEmpty raw := by
    rw [errorLines, List.head?_filterMap]
    simp only [findSome?_eq_some_iff_isFirst (fun _ => errorLine?_eq_none_iff),
      errorLine?_eq_some_iff, eq_comm (a := ([] : List Char)), Text.trim_eq_nil_iff]
    constructor
    · rintro ⟨_, l, hl, before, after, hcut, -, hblank⟩
      exact ⟨l, before, after, hl, hcut, hblank⟩
    · rintro ⟨l, before, after, hl, hcut, hblank⟩
      exact ⟨_, l, hl, before, after, hcut, rfl, hblank⟩
  rw [← hfirst, read]
  cases errorLines raw with
  | nil => simp [Traceback.fallback_message_ne_empty]
  | cons e es => simp [Prod.ext_iff]

/-! ## The uploader -/

theorem Uploader.ne_nil_of_isRelevant {l : List Char} (h : isRelevant l = true) : l ≠ [] := by
  rintro rfl
  revert h
  decide

theorem Uploader.message_ne_empty (origin : Option String) (raw : List Char) :
    (read origin raw).message ≠ "" := by
  rw [read]
  cases hls : relevantLines raw with
  | nil => exact Traceback.fallback_message_ne_empty _ _ _ _
  | cons l ls =>
      have hmem : l ∈ relevantLines raw := by simp [hls]
      have hl : l ≠ [] := ne_nil_of_isRelevant (List.mem_filter.mp hmem).2
      intro hempty
      have hchars := congrArg String.toList hempty
      rw [String.toList_intercalate] at hchars
      cases ls <;> simp [hl, List.intercalate_cons_cons] at hchars

/-! ## The translator -/

/-- There is an arrow line, and nothing but blanks stands behind the colon of the first header. -/
def Translator.LeftEmpty (raw : List Char) : Prop :=
  (∃ l ∈ Text.lines raw, IsPointing l) ∧
    ∃ l tag after, IsFirst IsHeading (Text.lines raw) l ∧ IsHeader l tag after ∧
      ∀ c ∈ after, isBlank c = true

namespace Translator

theorem firstHeader?_blank_iff {css : List (List Char)} :
    (∃ tag, firstHeader? (css.map Line.read) = some (tag, [])) ↔
      ∃ l tag after, IsFirst IsHeading css l ∧ IsHeader l tag after ∧
        ∀ c ∈ after, isBlank c = true := by
  simp only [firstHeader?_map_read,
    findSome?_eq_some_iff_isFirst (fun _ => header?_eq_none_iff_not_isHeading),
    header?_eq_some_iff, eq_comm (a := ([] : List Char)), Text.trim_eq_nil_iff]
  constructor
  · rintro ⟨tag, l, hl, after, hheader, hblank⟩
    exact ⟨l, tag, after, hl, hheader, hblank⟩
  · rintro ⟨l, tag, after, hl, hheader, hblank⟩
    exact ⟨tag, l, hl, after, hheader, hblank⟩

/-- A text with an arrow in it is not blank. -/
theorem trim_ne_nil_of_isPointing {raw l : List Char} (hl : l ∈ Text.lines raw)
    (h : IsPointing l) : trim raw ≠ [] := by
  intro htrim
  have harrow : "-->".toList <:+: raw := h.2.trans (Text.infix_of_mem_lines hl)
  have hdash : isBlank '-' = true :=
    Text.trim_eq_nil_iff.mp htrim '-' (harrow.subset (by simp))
  cases hdash

theorem message_eq_empty_iff {origin : Option String} {raw : List Char} {t : Traceback}
    (h : read origin raw = .ok t) : t.message = "" ↔ LeftEmpty raw := by
  rw [LeftEmpty, ← firstHeader?_blank_iff]
  rw [read_eq] at h
  cases hframes : frames origin (blocks ((Text.lines raw).map Line.read)) with
  | error e => simp [hframes] at h
  | ok fs =>
      have hnil := (frames_eq_nil_iff hframes).trans blocks_eq_nil_iff
      cases fs with
      | nil =>
          -- nothing points anywhere
          have hnone := hnil.mp rfl
          simp only [hframes, Except.ok.injEq] at h
          subst h
          refine iff_of_false (Traceback.fallback_message_ne_empty _ _ _ _) ?_
          rintro ⟨⟨l, hl, hpoints⟩, -⟩
          exact hnone l hl hpoints
      | cons f fs =>
          obtain ⟨l, hl, hpoints⟩ : ∃ l ∈ Text.lines raw, IsPointing l := by
            simpa using hnil
          simp only [hframes, Except.ok.injEq] at h
          subst h
          have hsome : ∃ l ∈ Text.lines raw, IsPointing l := ⟨l, hl, hpoints⟩
          have htrim := trim_ne_nil_of_isPointing hl hpoints
          cases firstHeader? ((Text.lines raw).map Line.read) with
          | none => simp [htrim]
          | some p => simp [hsome, Prod.ext_iff]

end Translator

/-! ## Every tool -/

/-- **When a message is empty.** Of the diagnostics that are read, exactly those have an empty
message in which the compiler or the translator left it empty. -/
theorem normalize_message_eq_empty_iff {stage : Stage} {origin : Option String} {raw : String}
    {t : Traceback} (h : normalize stage origin raw = .ok t) :
    t.message = "" ↔
      (stage = .compile ∧ Compiler.LeftEmpty raw.toList) ∨
        (stage = .translate ∧ Translator.LeftEmpty raw.toList) := by
  cases stage with
  | translate => simpa using Translator.message_eq_empty_iff h
  | compile =>
      cases h
      simpa using Compiler.message_eq_empty_iff origin raw.toList
  | upload =>
      cases h
      simpa using Uploader.message_ne_empty origin raw.toList

/-- The first header counts, even if it is empty and another follows. Without an arrow line the text
stands in for it. -/
theorem normalize_message_eq_empty_sample :
    (∃ t, normalize .translate none "--> a.go:1\nerror[E1]: \t\nerror: late" = .ok t ∧
      t.message = "" ∧ Translator.LeftEmpty "--> a.go:1\nerror[E1]: \t\nerror: late".toList) ∧
    ∃ t, normalize .translate none "error[E1]: \t" = .ok t ∧ t.message = "error[E1]:" ∧
      ¬ Translator.LeftEmpty "error[E1]: \t".toList := by
  have hempty : normalize .translate none "--> a.go:1\nerror[E1]: \t\nerror: late" =
      .ok ⟨"error[E1]", "", [⟨"a.go", 1, "transpile", []⟩], List.cons_ne_nil _ _⟩ := by
    decide +kernel
  have htext : normalize .translate none "error[E1]: \t" =
      .ok ⟨"TranspileError", "error[E1]:",
        [⟨"", 0, "transpile", [⟨0, "error[E1]:", true⟩]⟩], List.cons_ne_nil _ _⟩ := by
    decide +kernel
  refine ⟨⟨_, hempty, rfl, ?_⟩, _, htext, rfl, fun hleft => ?_⟩
  · simpa using (normalize_message_eq_empty_iff hempty).mp rfl
  · have hmessage := (normalize_message_eq_empty_iff htext).mpr (.inr ⟨rfl, hleft⟩)
    exact absurd hmessage (by decide)

end SketchBuild.Diagnostic
