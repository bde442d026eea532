import Mathlib.Data.List.DropRight
import SketchBuild.Proofs.Text

/-!
# Whole numbers as they are written

A number is read from more spellings than digits alone: a sign may stand in front, and single
underscores between digits. `IsNumeral` is this grammar, and reading a trimmed text is exactly this
relation:

    readInt?_trim_eq_some_iff : readInt? (trim cs) = some n ↔
      ∃ sign groups, IsNumeral (trim cs) sign groups ∧ groups.flatten.length ≤ maxDigits ∧
        n = signed sign (digitsValue groups.flatten)

Of these spellings, `IsNumber` picks out the digits alone and `IsMarkedNumber` all others that have
a value besides zero.
-/

namespace SketchBuild.Text

/-! ## Fields and trimming -/

/-- The fields between single separators are the library's. -/
theorem fields_eq_splitOn (x : Char) (cs : List Char) : fields (· == x) cs = cs.splitOn x := by
  induction cs with
  | nil => rfl
  | cons c cs ih =>
      rw [fields, List.splitOn_eq_splitOnP, List.splitOnP_cons_eq_if_modifyHead,
        ← List.splitOn_eq_splitOnP, ih]
      split
      · rfl
      · cases hcs : cs.splitOn x with
        | nil => exact absurd hcs (List.splitOn_ne_nil x cs)
        | cons f fs => rfl

theorem splitOn_cons_of_ne {x c : Char} (h : c ≠ x) (cs : List Char) :
    (c :: cs).splitOn x = consField c (cs.splitOn x) := by
  rw [← fields_eq_splitOn, ← fields_eq_splitOn, fields,
    if_neg (by simpa using h)]

theorem isBlank_head_trim {cs : List Char} {c : Char} (h : (trim cs).head? = some c) :
    isBlank c = false := by
  -- trimming on the right does not touch the first character of what it leaves
  obtain ⟨rest, hrest⟩ : trim cs <+: cs.dropWhile isBlank := List.rdropWhile_prefix isBlank _
  have hhead := List.head?_dropWhile_not isBlank cs
  rw [← hrest, List.head?_append, h] at hhead
  exact hhead

theorem isBlank_last_trim {cs : List Char} {c : Char} (h : (trim cs).getLast? = some c) :
    isBlank c = false := by
  have hhead := List.head?_dropWhile_not isBlank (cs.dropWhile isBlank).reverse
  rw [trim, trimLeftBy, trimRight, trimRightBy, List.getLast?_reverse] at h
  rw [h] at hhead
  exact hhead

/-- A trimmed text has nothing to trim of a narrower class of blanks. -/
theorem trimBy_trim {p : Char → Bool} (hp : ∀ c, p c = true → isBlank c = true) (cs : List Char) :
    trimRightBy p (trimLeftBy p (trim cs)) = trim cs := by
  have hleft : trimLeftBy p (trim cs) = trim cs := by
    refine List.dropWhile_eq_self_iff.mpr fun hne hc => ?_
    have hblank := @isBlank_head_trim cs _ (List.head?_eq_getElem? ▸ List.getElem?_eq_getElem hne)
    rw [hp _ hc] at hblank
    cases hblank
  rw [hleft]
  refine List.rdropWhile_eq_self_iff.mpr fun hne hc => ?_
  have hblank := isBlank_last_trim (List.getLast?_eq_some_getLast hne)
  rw [hp _ hc] at hblank
  cases hblank

/-! ## The grammar -/

/-- A text of one or more digits, and nothing else. -/
def IsNumber (cs : List Char) : Prop := cs ≠ [] ∧ ∀ c ∈ cs, isDigit c = true

/-- `cs` is a sign, which may be missing, and groups of digits with underscores between them. -/
structure IsNumeral (cs sign : List Char) (groups : List (List Char)) : Prop where
  spelling : cs = sign ++ ['_'].intercalate groups
  sign_mem : sign ∈ [[], ['+'], ['-']]
  groups_ne_nil : groups ≠ []
  isNumber : ∀ g ∈ groups, IsNumber g

/-- The number with the sign that stands in front of its digits. -/
def signed (sign : List Char) (n : Nat) : Int := if sign = ['-'] then -(n : Int) else n

theorem groupedDigits?_eq_some_iff {cs ds : List Char} :
    groupedDigits? cs = some ds ↔
      ∃ groups, IsNumeral cs [] groups ∧ ds = groups.flatten := by
  rw [groupedDigits?, fields_eq_splitOn]
  have hall : ∀ groups : List (List Char),
      (groups.all fun g => !g.isEmpty && g.all isDigit) = true ↔ ∀ g ∈ groups, IsNumber g := by
    simp [IsNumber]
  constructor
  · intro h
    obtain ⟨hgroups, hds⟩ := Option.ite_none_right_eq_some.mp h
    refine ⟨cs.splitOn '_', ⟨?_, by decide, List.splitOn_ne_nil _ _, (hall _).mp hgroups⟩, ?_⟩
    · rw [List.nil_append, List.intercalate_splitOn]
    · simpa using hds.symm
  · rintro ⟨groups, ⟨hcs, -, hne, hnumber⟩, rfl⟩
    -- an underscore is no digit, so the fields are the groups that were joined
    have hsplit : cs.splitOn '_' = groups := by
      rw [hcs, List.nil_append, List.splitOn_intercalate '_' _ hne]
      intro g hg hmem
      exact absurd ((hnumber g hg).2 _ hmem) (by decide)
    rw [hsplit, if_pos ((hall groups).mpr hnumber)]

theorem IsNumeral.exists_digit {cs : List Char} {groups : List (List Char)}
    (h : IsNumeral cs [] groups) : ∃ c rest, cs = c :: rest ∧ isDigit c = true := by
  obtain ⟨hcs, -, hne, hnumber⟩ := h
  obtain ⟨g, gs, rfl⟩ := List.exists_cons_of_ne_nil hne
  obtain ⟨hg, hdigits⟩ := hnumber g List.mem_cons_self
  obtain ⟨c, g, rfl⟩ := List.exists_cons_of_ne_nil hg
  have hc : isDigit c = true := hdigits c List.mem_cons_self
  cases gs with
  | nil => exact ⟨c, g, by rw [hcs, List.nil_append, List.intercalate_singleton], hc⟩
  | cons g' gs =>
      exact ⟨c, g ++ ['_'] ++ ['_'].intercalate (g' :: gs),
        by rw [hcs, List.nil_append, List.intercalate_cons_cons]; rfl, hc⟩

/-- What stands behind the sign is a numeral without one. -/
theorem isNumeral_iff {cs sign : List Char} {groups : List (List Char)} :
    IsNumeral cs sign groups ↔
      sign ∈ [[], ['+'], ['-']] ∧ ∃ ds, cs = sign ++ ds ∧ IsNumeral ds [] groups :=
  ⟨fun ⟨hcs, hsign, hne, hnumber⟩ => ⟨hsign, _, hcs, ⟨rfl, by decide, hne, hnumber⟩⟩,
    fun ⟨hsign, _, hcs, h⟩ => ⟨hcs.trans (by rw [h.spelling, List.nil_append]), hsign,
      h.groups_ne_nil, h.isNumber⟩⟩

/-- The sign of a numeral is the one it starts with. -/
theorem isNumeral_append_iff {sign ds sign' : List Char} {groups : List (List Char)}
    (hsign : sign ∈ [[], ['+'], ['-']])
    (hds : sign = [] → ds.head? ≠ some '+' ∧ ds.head? ≠ some '-') :
    IsNumeral (sign ++ ds) sign' groups ↔ sign' = sign ∧ IsNumeral ds [] groups := by
  rw [isNumeral_iff]
  constructor
  · rintro ⟨hsign', es, heq, hes⟩
    obtain ⟨c, rest, rfl, hc⟩ := hes.exists_digit
    have hplus : '+' ≠ c := by rintro rfl; exact absurd hc (by decide)
    have hminus : '-' ≠ c := by rintro rfl; exact absurd hc (by decide)
    simp only [List.mem_cons, List.not_mem_nil, or_false] at hsign hsign'
    rcases hsign with rfl | rfl | rfl <;> rcases hsign' with rfl | rfl | rfl <;> simp_all
  · rintro ⟨rfl, h⟩
    exact ⟨hsign, ds, rfl, h⟩

/-- Reads digits with underscores between them, without a sign. -/
def readGrouped? (ds : List Char) : Option Nat :=
  (groupedDigits? ds).bind fun ds => (readDigits ds).toOption

theorem readGrouped?_eq_some_iff {ds : List Char} {n : Nat} :
    readGrouped? ds = some n ↔
      ∃ groups, IsNumeral ds [] groups ∧ groups.flatten.length ≤ maxDigits ∧
        n = digitsValue groups.flatten := by
  have hread : ∀ es : List Char, (readDigits es).toOption = some n ↔
      es.length ≤ maxDigits ∧ n = digitsValue es := by
    intro es
    rw [readDigits]
    split
    · next hle => simp [Except.toOption, hle, eq_comm]
    · next hlt => simp [Except.toOption, hlt]
  simp only [readGrouped?, Option.bind_eq_some_iff, groupedDigits?_eq_some_iff, hread]
  constructor
  · rintro ⟨_, ⟨groups, hgroups, rfl⟩, h⟩
    exact ⟨groups, hgroups, h⟩
  · rintro ⟨groups, hgroups, h⟩
    exact ⟨_, ⟨groups, hgroups, rfl⟩, h⟩

/-- What is read is the sign that is there and the digits behind it. -/
theorem exists_readInt?_trim (cs : List Char) :
    ∃ sign ds, trim cs = sign ++ ds ∧ sign ∈ [[], ['+'], ['-']] ∧
      (sign = [] → ds.head? ≠ some '+' ∧ ds.head? ≠ some '-') ∧
      readInt? (trim cs) = (readGrouped? ds).map (signed sign) := by
  have hblank : ∀ c, isNumberBlank c = true → isBlank c = true := fun c hc => by
    rw [isNumberBlank, Bool.and_eq_true] at hc
    exact hc.1
  rw [readInt?, trimBy_trim hblank]
  split
  next negative numeral h =>
    obtain ⟨sign, hcs, hsign, hnegative, hhead⟩ : ∃ sign, trim cs = sign ++ numeral ∧
        sign ∈ [[], ['+'], ['-']] ∧ (negative = true ↔ sign = ['-']) ∧
        (sign = [] → numeral.head? ≠ some '+' ∧ numeral.head? ≠ some '-') := by
      split at h
      · next hbody =>
          cases h
          exact ⟨['-'], hbody, by decide, by decide, by simp⟩
      · next hbody =>
          cases h
          exact ⟨['+'], hbody, by decide, by decide, by simp⟩
      · next hminus hplus =>
          cases h
          refine ⟨[], rfl, by decide, by decide, fun _ => ⟨fun h => ?_, fun h => ?_⟩⟩
          · obtain ⟨ds, hds⟩ := List.head?_eq_some_iff.mp h
            exact hplus ds hds
          · obtain ⟨ds, hds⟩ := List.head?_eq_some_iff.mp h
            exact hminus ds hds
    refine ⟨sign, numeral, hcs, hsign, hhead, ?_⟩
    rw [readGrouped?]
    cases groupedDigits? numeral with
    | none => rfl
    | some ds =>
        cases hds : readDigits ds with
        | error e => simp [hds, Except.toOption]
        | ok n => simp [hds, Except.toOption, signed, hnegative]

/-- **Reading a number is the grammar of numerals**, cut off at `maxDigits`. -/
theorem readInt?_trim_eq_some_iff {cs : List Char} {n : Int} :
    readInt? (trim cs) = some n ↔
      ∃ sign groups, IsNumeral (trim cs) sign groups ∧ groups.flatten.length ≤ maxDigits ∧
        n = signed sign (digitsValue groups.flatten) := by
  obtain ⟨sign, ds, hcs, hsign, hds, hread⟩ := exists_readInt?_trim cs
  rw [hread, hcs]
  simp only [isNumeral_append_iff hsign hds, Option.map_eq_some_iff, readGrouped?_eq_some_iff]
  constructor
  · rintro ⟨_, ⟨groups, hgroups, hlen, rfl⟩, rfl⟩
    exact ⟨sign, groups, ⟨rfl, hgroups⟩, hlen, rfl⟩
  · rintro ⟨_, groups, ⟨rfl, hgroups⟩, hlen, rfl⟩
    exact ⟨_, ⟨groups, hgroups, hlen, rfl⟩, rfl⟩

/-! ## Plain and marked numbers -/

/-- A numeral with a sign or an underscore, which is read as a number other than zero. -/
def IsMarkedNumber (cs : List Char) : Prop :=
  ∃ sign groups, IsNumeral cs sign groups ∧ (sign ≠ [] ∨ 1 < groups.length) ∧
    groups.flatten.length ≤ maxDigits ∧ digitsValue groups.flatten ≠ 0

theorem IsNumber.isNumeral {cs : List Char} (h : IsNumber cs) : IsNumeral cs [] [cs] :=
  ⟨by rw [List.nil_append, List.intercalate_singleton], by decide, List.cons_ne_nil _ _,
    fun _ hg => List.mem_singleton.mp hg ▸ h⟩

/-- Digits alone are read as what they say. -/
theorem readInt?_of_isNumber {cs : List Char} (h : IsNumber (trim cs))
    (hlen : (trim cs).length ≤ maxDigits) :
    readInt? (trim cs) = some (digitsValue (trim cs) : Int) := by
  refine readInt?_trim_eq_some_iff.mpr ⟨[], [trim cs], h.isNumeral, ?_, ?_⟩
  · rwa [List.flatten_singleton]
  · rw [List.flatten_singleton]
    rfl

/-- A sign or an underscore is no digit. -/
theorem IsMarkedNumber.not_isNumber {cs : List Char} (h : IsMarkedNumber cs) : ¬ IsNumber cs := by
  obtain ⟨sign, groups, hcs, hmark, -⟩ := h
  intro hnumber
  have hdigit : ∀ c ∈ sign ++ ['_'].intercalate groups, isDigit c = true :=
    hcs.spelling ▸ hnumber.2
  rcases hmark with hsign | hlen
  · have hmem := hcs.sign_mem
    simp only [List.mem_cons, List.not_mem_nil, or_false] at hmem
    rcases hmem with rfl | rfl | rfl
    · exact hsign rfl
    · exact absurd (hdigit '+' List.mem_cons_self) (by decide)
    · exact absurd (hdigit '-' List.mem_cons_self) (by decide)
  · match groups, hlen with
    | g :: g' :: gs, _ =>
        refine absurd (hdigit '_' ?_) (by decide)
        simp [List.intercalate_cons_cons]

/-- **What is read as a number other than zero is digits alone or marked.** -/
theorem readInt?_ne_zero_cases {cs : List Char} {n : Int} (h : readInt? (trim cs) = some n)
    (hn : n ≠ 0) :
    IsMarkedNumber (trim cs) ∨ IsNumber (trim cs) ∧ n = digitsValue (trim cs) := by
  obtain ⟨sign, groups, hcs, hlen, rfl⟩ := readInt?_trim_eq_some_iff.mp h
  have hvalue : digitsValue groups.flatten ≠ 0 := by
    intro hzero
    rw [hzero] at hn
    exact hn (by simp [signed])
  by_cases hmark : sign ≠ [] ∨ 1 < groups.length
  · exact .inl ⟨sign, groups, hcs, hmark, hlen, hvalue⟩
  · obtain ⟨hsign, hone⟩ := not_or.mp hmark
    obtain rfl : sign = [] := not_not.mp hsign
    obtain ⟨g, rfl⟩ : ∃ g, groups = [g] := by
      have hpos := List.length_pos_iff.mpr hcs.groups_ne_nil
      exact List.length_eq_one_iff.mp (by omega)
    have hg : trim cs = g := by
      rw [hcs.spelling, List.nil_append, List.intercalate_singleton]
    rw [List.flatten_singleton, ← hg]
    exact .inr ⟨hg ▸ hcs.isNumber g List.mem_cons_self, rfl⟩

/-- A marked number is read, and not as zero. -/
theorem IsMarkedNumber.readInt? {cs : List Char} (h : IsMarkedNumber (trim cs)) :
    ∃ n, Text.readInt? (trim cs) = some n ∧ n ≠ 0 := by
  obtain ⟨sign, groups, hcs, -, hlen, hvalue⟩ := h
  refine ⟨_, readInt?_trim_eq_some_iff.mpr ⟨sign, groups, hcs, hlen, rfl⟩, ?_⟩
  rw [signed]
  split <;> omega

end SketchBuild.Text
