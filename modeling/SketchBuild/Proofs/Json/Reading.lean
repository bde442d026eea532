import SketchBuild.Proofs.Json.Strings
import SketchBuild.Proofs.Text

/-!
# What the reader gives

One equivalence for each of `value`, `items` and `members` says when it succeeds and with what:
`value_eq_ok_iff`, `items_eq_ok_iff`, `members_eq_ok_iff`. Read from left to right they give, by
induction on the steps, that whatever is read is canonical and nested no deeper than is allowed
(`fits_of_parse`).
-/

namespace SketchBuild.Json

open Text (Piece Str)

/-- A canonical value that is nested at most `depth` deep. -/
def Fits (depth : Nat) (v : Json) : Prop := Canonical v ∧ v.depth ≤ depth

/-! ## Numbers -/

theorem digitValue?_getD_lt (c : Char) : (Text.digitValue? c).getD 0 < 10 := by
  cases h : Text.digitValue? c with
  | none => decide
  | some d =>
      rw [Text.digitValue?] at h
      obtain ⟨z, -, hz⟩ := List.exists_of_findSome?_eq_some h
      split at hz
      · cases hz
        rw [Option.getD_some]
        omega
      · cases hz

/-- Digits have a value below the power of ten that has one digit more. -/
theorem digitsValue_lt (cs : List Char) : Text.digitsValue cs < 10 ^ cs.length := by
  have hfold : ∀ (cs : List Char) (n : Nat),
      cs.foldl (fun n c => 10 * n + (Text.digitValue? c).getD 0) n < (n + 1) * 10 ^ cs.length := by
    intro cs
    induction cs with
    | nil => simp
    | cons c cs ih =>
        intro n
        have hc := digitValue?_getD_lt c
        calc (c :: cs).foldl (fun n c => 10 * n + (Text.digitValue? c).getD 0) n
            < (10 * n + (Text.digitValue? c).getD 0 + 1) * 10 ^ cs.length := ih _
          _ ≤ (10 * (n + 1)) * 10 ^ cs.length := Nat.mul_le_mul_right _ (by omega)
          _ = (n + 1) * 10 ^ (c :: cs).length := by
              rw [List.length_cons, Nat.pow_succ, Nat.mul_comm 10, Nat.mul_assoc, Nat.mul_comm 10]
  have h := hfold cs 0
  rwa [Nat.zero_add, Nat.one_mul] at h

theorem lt_of_readDigits {cs : List Char} {n : Nat} (h : Text.readDigits cs = .ok n) :
    n < 10 ^ Text.maxDigits := by
  rw [Text.readDigits] at h
  split at h
  · next hlen =>
      cases h
      exact Nat.lt_of_lt_of_le (digitsValue_lt cs) (Nat.pow_le_pow_right (by decide) hlen)
  · cases h

theorem natAbs_signed (negative : Bool) (n : Nat) :
    (if negative then -(n : Int) else n).natAbs = n := by
  cases negative
  · exact Int.natAbs_natCast n
  · exact (Int.natAbs_neg n).trans (Int.natAbs_natCast n)

/-- A number is a whole number that is not too long, or a number that is not whole. -/
theorem fits_of_unsignedNumber {negative : Bool} {cs rest : List Char} {v : Json}
    (h : unsignedNumber negative cs = some (.ok (v, rest))) (depth : Nat) : Fits depth v := by
  unfold unsignedNumber at h
  dsimp only at h
  split at h
  · cases h
  · split at h
    · cases h
      exact ⟨rfl, Nat.zero_le depth⟩
    · split at h
      · split at h
        · cases h
        · next n hn =>
            cases h
            refine ⟨?_, Nat.zero_le depth⟩
            rw [canonical_int, natAbs_signed]
            exact lt_of_readDigits hn
      · cases h
        exact ⟨rfl, Nat.zero_le depth⟩

theorem fits_of_scalar {depth : Nat} {cs rest : List Char} {v : Json}
    (h : scalar depth cs = .ok (v, rest)) : Fits depth v := by
  have hconst : ∀ entry ∈ constants, Canonical entry.2 ∧ entry.2.depth = 0 := by decide
  have hnumber : ∀ {negative : Bool} {ds : List Char} {e : Failure},
      (unsignedNumber negative ds).getD (.error e) = .ok (v, rest) → Fits depth v := by
    intro negative ds e hn
    cases hread : unsignedNumber negative ds with
    | none =>
        rw [hread] at hn
        cases hn
    | some r =>
        rw [hread] at hn
        exact fits_of_unsignedNumber (hread.trans (congrArg some hn)) depth
  unfold scalar at h
  split at h
  · next word u hfind =>
      obtain ⟨hcanonical, hdepth⟩ := hconst _ (List.mem_of_find?_eq_some hfind)
      split at h
      · cases h
      · cases h
        exact ⟨hcanonical, hdepth ▸ Nat.zero_le depth⟩
  · dsimp only at h
    split at h
    · exact hnumber h
    · exact hnumber h

/-! ## Taking values apart -/

theorem value_eq_ok_iff {depth fuel : Nat} {cs after : List Char} {v : Json} :
    value depth (fuel + 1) cs = .ok (v, after) ↔
      (∃ rest ps, cs = '"' :: rest ∧ stringBody cs.length rest = .ok (ps, after) ∧
        v = .str (.ofPieces ps)) ∨
      (∃ rest d, cs = '[' :: rest ∧ depth = d + 1 ∧
        (skipSpace rest = ']' :: after ∧ v = .arr [] ∨
          (∀ r, skipSpace rest ≠ ']' :: r) ∧
            ∃ vs, items d fuel (skipSpace rest) = .ok (vs, after) ∧ v = .arr vs)) ∨
      (∃ rest d, cs = '{' :: rest ∧ depth = d + 1 ∧
        (skipSpace rest = '}' :: after ∧ v = .obj [] ∨
          (∀ r, skipSpace rest ≠ '}' :: r) ∧
            ∃ ms, members d fuel [] (skipSpace rest) = .ok (ms, after) ∧ v = .obj ms)) ∨
      (∀ rest, cs ≠ '"' :: rest ∧ cs ≠ '[' :: rest ∧ cs ≠ '{' :: rest) ∧
        scalar depth cs = .ok (v, after) := by
  constructor
  · intro h
    rw [value.eq_def] at h
    dsimp only at h
    split at h
    · next rest =>
        split at h
        · cases h
        · next ps after' hps =>
            cases h
            exact .inl ⟨rest, ps, rfl, hps, rfl⟩
    · next rest =>
        split at h
        · cases h
        · next d =>
            split at h
            · next after' hskip =>
                cases h
                exact .inr (.inl ⟨rest, d, rfl, rfl, .inl ⟨hskip, rfl⟩⟩)
            · next rest' hne =>
                split at h
                · cases h
                · next vs after' hvs =>
                    cases h
                    exact .inr (.inl ⟨rest, d, rfl, rfl, .inr ⟨hne, vs, hvs, rfl⟩⟩)
    · next rest =>
        split at h
        · cases h
        · next d =>
            split at h
            · next after' hskip =>
                cases h
                exact .inr (.inr (.inl ⟨rest, d, rfl, rfl, .inl ⟨hskip, rfl⟩⟩))
            · next rest' hne =>
                split at h
                · cases h
                · next ms after' hms =>
                    cases h
                    exact .inr (.inr (.inl ⟨rest, d, rfl, rfl, .inr ⟨hne, ms, hms, rfl⟩⟩))
    · next hquote hbracket hbrace =>
        exact .inr (.inr (.inr
          ⟨fun rest => ⟨hquote rest, hbracket rest, hbrace rest⟩, h⟩))
  · rintro (⟨rest, ps, rfl, hps, rfl⟩ | ⟨rest, d, rfl, rfl, hv⟩ | ⟨rest, d, rfl, rfl, hv⟩ |
      ⟨hne, hv⟩)
    · rw [value, hps]
    · rw [value]
      obtain ⟨hskip, rfl⟩ | ⟨hne, vs, hvs, rfl⟩ := hv
      · rw [hskip]
        rfl
      · split
        · next r hr => exact absurd hr (hne r)
        · rw [hvs]
    · rw [value]
      obtain ⟨hskip, rfl⟩ | ⟨hne, ms, hms, rfl⟩ := hv
      · rw [hskip]
        rfl
      · split
        · next r hr => exact absurd hr (hne r)
        · rw [hms]
    · rw [value]
      · exact hv
      · exact fun rest => (hne rest).1
      · exact fun rest => (hne rest).2.1
      · exact fun rest => (hne rest).2.2

theorem items_eq_ok_iff {depth fuel : Nat} {cs after : List Char} {vs : List Json} :
    items depth (fuel + 1) cs = .ok (vs, after) ↔
      ∃ v rest, value depth fuel cs = .ok (v, rest) ∧
        (skipSpace rest = ']' :: after ∧ vs = [v] ∨
          ∃ r ws, skipSpace rest = ',' :: r ∧ items depth fuel (skipSpace r) = .ok (ws, after) ∧
            vs = v :: ws) := by
  constructor
  · intro h
    rw [items] at h
    split at h
    · cases h
    · next v rest hv =>
        split at h
        · next after' hskip =>
            cases h
            exact ⟨v, rest, hv, .inl ⟨hskip, rfl⟩⟩
        · next r hskip =>
            split at h
            · cases h
            · next ws after' hws =>
                cases h
                exact ⟨v, rest, hv, .inr ⟨r, ws, hskip, hws, rfl⟩⟩
        · cases h
  · rintro ⟨v, rest, hv, ⟨hskip, rfl⟩ | ⟨r, ws, hskip, hws, rfl⟩⟩
    · simp only [items, hv, hskip]
    · simp only [items, hv, hskip, hws]

theorem members_eq_ok_iff {depth fuel : Nat} {seen ms : List (Str × Json)} {cs after : List Char} :
    members depth (fuel + 1) seen cs = .ok (ms, after) ↔
      ∃ rest name afterName r v afterValue, cs = '"' :: rest ∧
        stringBody cs.length rest = .ok (name, afterName) ∧ skipSpace afterName = ':' :: r ∧
        value depth fuel (skipSpace r) = .ok (v, afterValue) ∧
        (skipSpace afterValue = '}' :: after ∧ ms = setMember (.ofPieces name) v seen ∨
          ∃ r', skipSpace afterValue = ',' :: r' ∧
            members depth fuel (setMember (.ofPieces name) v seen) (skipSpace r') =
              .ok (ms, after)) := by
  constructor
  · intro h
    rw [members.eq_def] at h
    dsimp only at h
    split at h
    · next rest =>
        split at h
        · cases h
        · next name afterName hname =>
            split at h
            · next r hcolon =>
                split at h
                · cases h
                · next v afterValue hv =>
                    split at h
                    · next after' hend =>
                        cases h
                        exact ⟨rest, name, afterName, r, v, afterValue, rfl, hname, hcolon, hv,
                          .inl ⟨hend, rfl⟩⟩
                    · next r' hcomma =>
                        exact ⟨rest, name, afterName, r, v, afterValue, rfl, hname, hcolon, hv,
                          .inr ⟨r', hcomma, h⟩⟩
                    · cases h
            · cases h
    · cases h
  · rintro ⟨rest, name, afterName, r, v, afterValue, rfl, hname, hcolon, hv, hend⟩
    obtain ⟨hend, rfl⟩ | ⟨r', hcomma, hms⟩ := hend
    · simp only [members, hname, hcolon, hv, hend]
    · simp only [members, hname, hcolon, hv, hcomma, hms]

/-! ## Everything that is read is canonical -/

/-- Members with canonical names and values, whose names differ. -/
def CanonicalMembers (ms : List (Str × Json)) : Prop :=
  (∀ m ∈ ms, m.1.isCanonical = true ∧ Canonical m.2) ∧ (ms.map (·.1)).Nodup

theorem canonical_obj {ms : List (Str × Json)} : Canonical (.obj ms) ↔ CanonicalMembers ms := by
  rw [Canonical, all_obj, isCanonical, Bool.and_eq_true, List.all_eq_true, namesDiffer,
    decide_eq_true_eq]
  constructor
  · rintro ⟨⟨hnames, hnodup⟩, hvalues⟩
    exact ⟨fun m hm => ⟨hnames m hm, hvalues m hm⟩, hnodup⟩
  · rintro ⟨hms, hnodup⟩
    exact ⟨⟨fun m hm => (hms m hm).1, hnodup⟩, fun m hm => (hms m hm).2⟩

/-- Names stay as they are, or get one more at the end. -/
theorem map_fst_setMember (name : Str) (v : Json) (ms : List (Str × Json)) :
    (setMember name v ms).map (·.1) =
      if name ∈ ms.map (·.1) then ms.map (·.1) else ms.map (·.1) ++ [name] := by
  induction ms with
  | nil => simp [setMember]
  | cons m ms ih =>
      obtain ⟨n, u⟩ := m
      rw [setMember]
      by_cases h : n = name
      · simp [h]
      · have hmem : name ∈ n :: ms.map (·.1) ↔ name ∈ ms.map (·.1) :=
          List.mem_cons.trans (or_iff_right (Ne.symm h))
        rw [if_neg h, List.map_cons, ih, List.map_cons]
        simp only [hmem]
        split <;> rfl

theorem mem_setMember {name : Str} {v : Json} {ms : List (Str × Json)} {m : Str × Json}
    (h : m ∈ setMember name v ms) : m = (name, v) ∨ m ∈ ms := by
  induction ms with
  | nil => exact .inl (List.mem_singleton.mp h)
  | cons m' ms ih =>
      obtain ⟨n, u⟩ := m'
      rw [setMember] at h
      split at h
      · next hn =>
          rcases List.mem_cons.mp h with rfl | h
          · exact .inl (by rw [hn])
          · exact .inr (List.mem_cons_of_mem _ h)
      · rcases List.mem_cons.mp h with rfl | h
        · exact .inr List.mem_cons_self
        · exact (ih h).imp_right (List.mem_cons_of_mem _)

theorem CanonicalMembers.setMember {ms : List (Str × Json)} (h : CanonicalMembers ms) {name : Str}
    {v : Json} (hname : name.isCanonical = true) (hv : Canonical v) :
    CanonicalMembers (setMember name v ms) := by
  refine ⟨fun m hm => ?_, ?_⟩
  · rcases mem_setMember hm with rfl | hm
    · exact ⟨hname, hv⟩
    · exact h.1 m hm
  · rw [map_fst_setMember]
    split
    · exact h.2
    · next hne =>
        rw [List.nodup_append]
        refine ⟨h.2, by simp, fun a ha b hb hab => ?_⟩
        rw [List.mem_singleton.mp hb] at hab
        exact hne (hab ▸ ha)

theorem depthOfItems_le_iff {vs : List Json} {d : Nat} :
    depthOfItems vs ≤ d ↔ ∀ v ∈ vs, v.depth ≤ d := by
  induction vs with
  | nil => simp [depthOfItems]
  | cons v vs ih => rw [depthOfItems, Nat.max_le, ih, List.forall_mem_cons]

theorem depthOfMembers_le_iff {ms : List (Str × Json)} {d : Nat} :
    depthOfMembers ms ≤ d ↔ ∀ m ∈ ms, m.2.depth ≤ d := by
  induction ms with
  | nil => simp [depthOfMembers]
  | cons m ms ih =>
      obtain ⟨name, v⟩ := m
      rw [depthOfMembers, Nat.max_le, ih, List.forall_mem_cons]

/-- Canonical members whose values are nested at most `depth` deep. -/
def MembersFit (depth : Nat) (ms : List (Str × Json)) : Prop :=
  CanonicalMembers ms ∧ ∀ m ∈ ms, m.2.depth ≤ depth

theorem MembersFit.nil (depth : Nat) : MembersFit depth [] :=
  ⟨⟨List.forall_mem_nil _, List.nodup_nil⟩, List.forall_mem_nil _⟩

theorem MembersFit.setMember {depth : Nat} {ms : List (Str × Json)} (h : MembersFit depth ms)
    {name : Str} {v : Json} (hname : name.isCanonical = true) (hv : Fits depth v) :
    MembersFit depth (setMember name v ms) := by
  refine ⟨h.1.setMember hname hv.1, fun m hm => ?_⟩
  rcases mem_setMember hm with rfl | hm
  · exact hv.2
  · exact h.2 m hm

theorem fits_arr {depth : Nat} {vs : List Json} (h : ∀ v ∈ vs, Fits depth v) :
    Fits (depth + 1) (.arr vs) := by
  refine ⟨all_arr.mpr ⟨rfl, fun v hv => (h v hv).1⟩, ?_⟩
  rw [Json.depth]
  exact Nat.succ_le_succ (depthOfItems_le_iff.mpr fun v hv => (h v hv).2)

theorem fits_obj {depth : Nat} {ms : List (Str × Json)} (h : MembersFit depth ms) :
    Fits (depth + 1) (.obj ms) := by
  refine ⟨canonical_obj.mpr h.1, ?_⟩
  rw [Json.depth]
  exact Nat.succ_le_succ (depthOfMembers_le_iff.mpr h.2)

theorem fits_of_read (fuel : Nat) :
    (∀ {depth cs v rest}, value depth fuel cs = .ok (v, rest) → Fits depth v) ∧
    (∀ {depth cs vs rest}, items depth fuel cs = .ok (vs, rest) → ∀ v ∈ vs, Fits depth v) ∧
    (∀ {depth seen cs ms rest}, members depth fuel seen cs = .ok (ms, rest) →
      MembersFit depth seen → MembersFit depth ms) := by
  induction fuel with
  | zero =>
      refine ⟨fun h => ?_, fun h => ?_, fun h => ?_⟩
      · rw [value] at h
        cases h
      · rw [items] at h
        cases h
      · rw [members] at h
        cases h
  | succ fuel ih =>
      obtain ⟨ihValue, ihItems, ihMembers⟩ := ih
      have hstring : ∀ {start cs ps rest}, stringBody start cs = .ok (ps, rest) →
          (Str.ofPieces ps).isCanonical = true :=
        fun h => Str.isCanonical_ofPieces (parted_of_stringBody h)
      refine ⟨fun h => ?_, fun h => ?_, fun h hseen => ?_⟩
      · obtain ⟨rest, ps, rfl, hps, rfl⟩ | ⟨rest, d, rfl, rfl, hv⟩ | ⟨rest, d, rfl, rfl, hv⟩ |
            ⟨-, hv⟩ := value_eq_ok_iff.mp h
        · exact ⟨hstring hps, Nat.zero_le _⟩
        · obtain ⟨-, rfl⟩ | ⟨-, vs, hvs, rfl⟩ := hv
          · exact fits_arr (List.forall_mem_nil _)
          · exact fits_arr (ihItems hvs)
        · obtain ⟨-, rfl⟩ | ⟨-, ms, hms, rfl⟩ := hv
          · exact fits_obj (.nil d)
          · exact fits_obj (ihMembers hms (.nil d))
        · exact fits_of_scalar hv
      · obtain ⟨v, rest, hv, ⟨-, rfl⟩ | ⟨r, ws, -, hws, rfl⟩⟩ := items_eq_ok_iff.mp h
        · exact List.forall_mem_singleton.mpr (ihValue hv)
        · exact List.forall_mem_cons.mpr ⟨ihValue hv, ihItems hws⟩
      · obtain ⟨rest, name, afterName, r, v, afterValue, rfl, hname, -, hv, hend⟩ :=
          members_eq_ok_iff.mp h
        have hset := hseen.setMember (hstring hname) (ihValue hv)
        obtain ⟨-, rfl⟩ | ⟨r', -, hms⟩ := hend
        · exact hset
        · exact ihMembers hms hset

theorem parse_eq_ok_iff {depth : Nat} {text : List Char} {v : Json} :
    parse depth text = .ok v ↔
      (∀ rest, text ≠ '\ufeff' :: rest) ∧
        ∃ rest, value depth (2 * text.length + 2) (skipSpace text) = .ok (v, rest) ∧
          skipSpace rest = [] := by
  have hchars : parse depth text = .ok v ↔ parseChars depth text = .ok v := by
    rw [parse]
    split <;> simp_all
  rw [hchars]
  constructor
  · intro h
    rw [parseChars.eq_def] at h
    split at h
    · cases h
    · next hmark =>
        split at h
        · cases h
        · next u rest hu =>
            split at h
            · next hrest =>
                cases h
                exact ⟨hmark, rest, hu, hrest⟩
            · cases h
  · rintro ⟨hmark, rest, hv, hrest⟩
    rw [parseChars]
    · rw [hv]
      dsimp only
      rw [hrest]
    · exact hmark

/-- A file gives only canonical values that are nested no deeper than is allowed. -/
theorem fits_of_parse {depth : Nat} {text : List Char} {v : Json} (h : parse depth text = .ok v) :
    Fits depth v := by
  obtain ⟨-, rest, hv, -⟩ := parse_eq_ok_iff.mp h
  exact (fits_of_read _).1 hv

end SketchBuild.Json
