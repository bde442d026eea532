import SketchBuild.Proofs.Json.Reading

/-!
# Texts that go beyond the limits

The reader has two faults that are not about syntax: a whole number has too many digits, or values
are nested too deeply. Each of them can be seen in the text without reading it (`WithinLimits`): the
first needs a long run of digits, the second many opening brackets and braces, where a number that
is written as a word counts for one more. What carries the induction is that the text left after a
value is the end of the text before it (`Accounts`).
-/

namespace SketchBuild.Json

open Text (Piece Str)

/-- A character that opens an array or an object. -/
def isOpening (c : Char) : Bool := c = '[' || c = '{'

/-- A number is written as a word somewhere. -/
def HasWord (cs : List Char) : Prop := "NaN".toList <:+: cs ∨ "Infinity".toList <:+: cs
deriving Decidable

theorem HasWord.mono {cs cs' : List Char} (h : HasWord cs) (hpart : cs <:+: cs') :
    HasWord cs' :=
  h.imp (·.trans hpart) (·.trans hpart)

/-- The number of levels that a text may need. -/
def levels (cs : List Char) : Nat := cs.countP isOpening + if HasWord cs then 1 else 0

theorem levels_le_of_suffix {cs cs' : List Char} (h : cs <:+ cs') : levels cs ≤ levels cs' := by
  refine Nat.add_le_add h.sublist.countP_le ?_
  split
  · next hword => rw [if_pos (hword.mono h.isInfix)]
  · exact Nat.zero_le _

theorem levels_lt_cons {c : Char} {cs : List Char} (hc : isOpening c = true) :
    levels cs < levels (c :: cs) := by
  have hword : (if HasWord cs then 1 else 0) ≤ if HasWord (c :: cs) then 1 else 0 := by
    split
    · next h => rw [if_pos (h.mono (List.suffix_cons c cs).isInfix)]
    · exact Nat.zero_le _
  rw [levels, levels, List.countP_cons_of_pos hc]
  omega

/-- No run of digits is longer than a number may be, and no more levels are needed than there may
be. -/
def WithinLimits (depth : Nat) (text : List Char) : Prop :=
  (∀ run, run <:+: text → (∀ c ∈ run, c.isDigit) → run.length ≤ Text.maxDigits) ∧
    levels text ≤ depth

/-- The text shows why the reader, allowed `depth` levels, has met with a failure. -/
def Failure.Accounted (depth : Nat) (cs : List Char) : Failure → Prop
  | .syntaxAt _ _ => True
  | .digits _ => ∃ run, run <:+: cs ∧ (∀ c ∈ run, c.isDigit) ∧ Text.maxDigits < run.length
  | .tooDeep _ => depth < levels cs

theorem Failure.Accounted.of_suffix {depth : Nat} {cs cs' : List Char} {e : Failure}
    (h : e.Accounted depth cs) (hsuffix : cs <:+ cs') : e.Accounted depth cs' := by
  cases e with
  | syntaxAt => trivial
  | digits =>
      obtain ⟨run, hrun, hdigits⟩ := h
      exact ⟨run, hrun.trans hsuffix.isInfix, hdigits⟩
  | tooDeep => exact Nat.lt_of_lt_of_le h (levels_le_of_suffix hsuffix)

/-- One level more is allowed where one bracket more is opened. -/
theorem Failure.Accounted.opened {depth : Nat} {c : Char} {cs : List Char} {e : Failure}
    (h : e.Accounted depth cs) (hc : isOpening c = true) : e.Accounted (depth + 1) (c :: cs) := by
  cases e with
  | syntaxAt => trivial
  | digits =>
      obtain ⟨run, hrun, hdigits⟩ := h
      exact ⟨run, hrun.trans (List.suffix_cons c cs).isInfix, hdigits⟩
  | tooDeep => exact Nat.lt_of_le_of_lt h (levels_lt_cons hc)

/-- What is left is the end of the text, and a failure can be seen in the text. -/
def Accounts {α : Type} (depth : Nat) (cs : List Char) (r : Read α) : Prop :=
  (∀ a rest, r = .ok (a, rest) → rest <:+ cs) ∧ ∀ e, r = .error e → e.Accounted depth cs

section

variable {α : Type} {depth : Nat} {cs : List Char}

theorem accounts_ok {a : α} {rest : List Char} (h : rest <:+ cs) :
    Accounts depth cs (.ok (a, rest) : Read α) := by
  refine ⟨?_, by simp⟩
  rintro a' rest' ⟨⟩
  exact h

theorem accounts_error {e : Failure} (h : e.Accounted depth cs) :
    Accounts depth cs (.error e : Read α) := by
  refine ⟨by simp, ?_⟩
  rintro e' ⟨⟩
  exact h

theorem Accounts.of_suffix {r : Read α} {cs' : List Char} (h : Accounts depth cs r)
    (hsuffix : cs <:+ cs') : Accounts depth cs' r :=
  ⟨fun a rest hr => (h.1 a rest hr).trans hsuffix, fun e he => (h.2 e he).of_suffix hsuffix⟩

theorem Accounts.opened {r : Read α} {c : Char} (h : Accounts depth cs r)
    (hc : isOpening c = true) : Accounts (depth + 1) (c :: cs) r :=
  ⟨fun a rest hr => (h.1 a rest hr).trans (List.suffix_cons c cs),
    fun e he => (h.2 e he).opened hc⟩

theorem skipSpace_suffix (cs : List Char) : skipSpace cs <:+ cs := List.dropWhile_suffix _

theorem suffix_of_skipSpace {c : Char} {cs rest : List Char} (h : skipSpace cs = c :: rest) :
    rest <:+ cs :=
  (List.suffix_cons c rest).trans (h ▸ skipSpace_suffix cs)

end

/-! ## Strings -/

theorem suffix_of_escape {cs rest : List Char} {p : Piece} (h : escape cs = .ok (p, rest)) :
    rest <:+ cs := by
  rw [escape.eq_def] at h
  repeat' split at h
  all_goals cases h
  all_goals first
    | exact List.suffix_cons _ _
    | exact (List.drop_suffix _ _).trans (List.suffix_cons _ _)

theorem lowSurrogate?_error {cs : List Char} {e : Failure} (h : lowSurrogate? cs = .error e) :
    ∃ cause left, e = .syntaxAt cause left := by
  rw [lowSurrogate?] at h
  repeat' split at h
  all_goals cases h
  exact ⟨_, _, rfl⟩

theorem escape_error {cs : List Char} {e : Failure} (h : escape cs = .error e) :
    ∃ cause left, e = .syntaxAt cause left := by
  rw [escape.eq_def] at h
  repeat' split at h
  all_goals cases h
  all_goals first
    | exact ⟨_, _, rfl⟩
    | next hlow => exact lowSurrogate?_error hlow

theorem accounts_stringBody (depth start : Nat) (cs : List Char) :
    Accounts depth cs (stringBody start cs) := by
  fun_induction stringBody start cs with
  | case1 => exact accounts_error trivial
  | case2 rest => exact accounts_ok (List.suffix_cons _ _)
  | case3 => exact accounts_error trivial
  | case4 rest e _ he =>
      obtain ⟨cause, left, rfl⟩ := escape_error he
      exact accounts_error trivial
  | case5 rest p after he _ e hbody ih =>
      exact accounts_error (((ih.2 e hbody).of_suffix (suffix_of_escape he)).of_suffix
        (List.suffix_cons _ _))
  | case6 rest p after he _ body after' hbody ih =>
      exact accounts_ok (((ih.1 body after' hbody).trans (suffix_of_escape he)).trans
        (List.suffix_cons _ _))
  | case7 => exact accounts_error trivial
  | case8 c rest _ _ _ e hbody ih =>
      exact accounts_error ((ih.2 e hbody).of_suffix (List.suffix_cons _ _))
  | case9 c rest _ _ _ body after hbody ih =>
      exact accounts_ok ((ih.1 body after hbody).trans (List.suffix_cons _ _))

/-! ## Numbers -/

theorem wholePart?_eq {cs whole rest : List Char} (h : wholePart? cs = some (whole, rest)) :
    cs = whole ++ rest ∧ ∀ c ∈ whole, c.isDigit := by
  rw [wholePart?.eq_def] at h
  split at h
  · cases h
    exact ⟨rfl, List.forall_mem_singleton.mpr rfl⟩
  · split at h
    · cases h
    · cases h
      exact ⟨List.takeWhile_append_dropWhile.symm, List.all_eq_true.mp List.all_takeWhile⟩

theorem fraction_suffix (cs : List Char) : (fraction cs).2 <:+ cs := by
  rw [fraction.eq_def]
  split
  · next rest =>
      split
      · exact List.suffix_refl _
      · exact (List.dropWhile_suffix _).trans (List.suffix_cons _ _)
  · exact List.suffix_refl _

theorem suffix_of_exponent? {cs after : List Char} {n : Int} (h : exponent? cs = some (n, after)) :
    after <:+ cs := by
  rw [exponent?.eq_def] at h
  dsimp only at h
  split at h
  · next e rest =>
      split at h
      · split at h
        · cases h
        · next ds after' _ hrun =>
            cases h
            cases hrun
            refine (List.dropWhile_suffix _).trans
              (List.IsSuffix.trans ?_ (List.suffix_cons e rest))
            -- a sign may have been dropped
            split
            · exact List.suffix_cons _ _
            · exact List.suffix_cons _ _
            · exact List.suffix_refl _
      · cases h
  · cases h

theorem accounts_unsignedNumber (depth : Nat) {negative : Bool} {cs : List Char} {r : Read Json}
    (h : unsignedNumber negative cs = some r) : Accounts depth cs r := by
  rw [unsignedNumber] at h
  split at h
  · cases h
  · next whole rest hwhole =>
      obtain ⟨rfl, hdigits⟩ := wholePart?_eq hwhole
      have hfraction := (fraction_suffix rest).trans (List.suffix_append whole rest)
      dsimp only at h
      split at h
      · next e after hexponent =>
          cases h
          exact accounts_ok ((suffix_of_exponent? hexponent).trans hfraction)
      · split at h
        · split at h
          · next e he =>
              cases h
              have hlong : Text.maxDigits < whole.length := by
                rw [Text.readDigits] at he
                split at he
                · cases he
                · next hlong => exact Nat.lt_of_not_le hlong
              exact accounts_error ⟨whole, (List.prefix_append whole rest).isInfix, hdigits, hlong⟩
          · cases h
            exact accounts_ok hfraction
        · cases h
          exact accounts_ok hfraction

theorem hasWord_of_mem_constants {word : List Char} {x : Number.Binary64}
    (h : (word, .float x) ∈ constants) : HasWord word := by
  simp only [constants, List.mem_cons, Prod.mk.injEq, reduceCtorEq, and_false, false_or,
    List.not_mem_nil, or_false] at h
  obtain ⟨rfl, -⟩ | ⟨rfl, -⟩ | ⟨rfl, -⟩ := h
  · exact .inl (List.infix_refl _)
  · exact .inr (List.infix_refl _)
  · exact .inr (List.suffix_cons '-' _).isInfix

theorem accounts_scalar (depth : Nat) (cs : List Char) : Accounts depth cs (scalar depth cs) := by
  rw [scalar.eq_def]
  split
  · next word v hfind =>
      split
      · have hpre : word <+: cs := by simpa using List.find?_some hfind
        have hword := (hasWord_of_mem_constants (List.mem_of_find?_eq_some hfind)).mono
          hpre.isInfix
        refine accounts_error ?_
        show 0 < levels cs
        rw [levels, if_pos hword]
        exact Nat.succ_pos _
      · exact accounts_ok (List.drop_suffix _ _)
  · dsimp only
    have hnumber : ∀ (negative : Bool) {ds : List Char}, ds <:+ cs →
        Accounts depth cs
          ((unsignedNumber negative ds).getD (.error (.syntaxAt .expectingValue cs.length))) := by
      intro negative ds hds
      cases h : unsignedNumber negative ds with
      | none => exact accounts_error trivial
      | some r => exact (accounts_unsignedNumber depth h).of_suffix hds
    split
    · exact hnumber true (List.suffix_cons _ _)
    · exact hnumber false (List.suffix_refl _)

/-! ## Values -/

section Step

/-! What a reader does with one more step of fuel accounts for itself if the readers that it calls
do. -/

variable {fuel : Nat}

theorem accounts_value_succ (hitems : ∀ depth cs, Accounts depth cs (items depth fuel cs))
    (hmembers : ∀ depth seen cs, Accounts depth cs (members depth fuel seen cs))
    (depth : Nat) (cs : List Char) : Accounts depth cs (value depth (fuel + 1) cs) := by
  rw [value.eq_def]
  dsimp only
  split
  · next rest =>
      refine Accounts.of_suffix ?_ (List.suffix_cons '"' rest)
      split
      · next e he => exact accounts_error ((accounts_stringBody depth _ rest).2 e he)
      · next body after hbody =>
          exact accounts_ok ((accounts_stringBody depth _ rest).1 body after hbody)
  · next rest =>
      split
      · exact accounts_error (Nat.zero_lt_of_lt (levels_lt_cons rfl))
      · next depth =>
          refine Accounts.opened ?_ rfl
          split
          · next after hafter => exact accounts_ok (suffix_of_skipSpace hafter)
          · refine Accounts.of_suffix ?_ (skipSpace_suffix rest)
            split
            · next e he => exact accounts_error ((hitems depth _).2 e he)
            · next vs after hvs => exact accounts_ok ((hitems depth _).1 vs after hvs)
  · next rest =>
      split
      · exact accounts_error (Nat.zero_lt_of_lt (levels_lt_cons rfl))
      · next depth =>
          refine Accounts.opened ?_ rfl
          split
          · next after hafter => exact accounts_ok (suffix_of_skipSpace hafter)
          · refine Accounts.of_suffix ?_ (skipSpace_suffix rest)
            split
            · next e he => exact accounts_error ((hmembers depth [] _).2 e he)
            · next ms after hms => exact accounts_ok ((hmembers depth [] _).1 ms after hms)
  · exact accounts_scalar depth cs

theorem accounts_items_succ (hvalue : ∀ depth cs, Accounts depth cs (value depth fuel cs))
    (hitems : ∀ depth cs, Accounts depth cs (items depth fuel cs))
    (depth : Nat) (cs : List Char) : Accounts depth cs (items depth (fuel + 1) cs) := by
  rw [items]
  split
  · next e he => exact accounts_error ((hvalue depth cs).2 e he)
  · next v rest hv =>
      refine Accounts.of_suffix ?_ ((hvalue depth cs).1 v rest hv)
      split
      · next after hafter => exact accounts_ok (suffix_of_skipSpace hafter)
      · next after hafter =>
          refine Accounts.of_suffix ?_
            ((skipSpace_suffix after).trans (suffix_of_skipSpace hafter))
          split
          · next e he => exact accounts_error ((hitems depth _).2 e he)
          · next vs after' hvs => exact accounts_ok ((hitems depth _).1 vs after' hvs)
      · exact accounts_error trivial

theorem accounts_members_succ (hvalue : ∀ depth cs, Accounts depth cs (value depth fuel cs))
    (hmembers : ∀ depth seen cs, Accounts depth cs (members depth fuel seen cs))
    (depth : Nat) (seen : List (Text.Str × Json)) (cs : List Char) :
    Accounts depth cs (members depth (fuel + 1) seen cs) := by
  rw [members.eq_def]
  dsimp only
  split
  · next rest =>
      refine Accounts.of_suffix ?_ (List.suffix_cons '"' rest)
      split
      · next e he => exact accounts_error ((accounts_stringBody depth _ rest).2 e he)
      · next name afterName hname =>
          refine Accounts.of_suffix ?_
            ((accounts_stringBody depth _ rest).1 name afterName hname)
          split
          · next r hcolon =>
              refine Accounts.of_suffix ?_
                ((skipSpace_suffix r).trans (suffix_of_skipSpace hcolon))
              split
              · next e he => exact accounts_error ((hvalue depth _).2 e he)
              · next v afterValue hv =>
                  refine Accounts.of_suffix ?_ ((hvalue depth _).1 v afterValue hv)
                  split
                  · next after hafter => exact accounts_ok (suffix_of_skipSpace hafter)
                  · next after hafter =>
                      exact (hmembers depth _ _).of_suffix
                        ((skipSpace_suffix after).trans (suffix_of_skipSpace hafter))
                  · exact accounts_error trivial
          · exact accounts_error trivial
  · exact accounts_error trivial

end Step

theorem accounts_read (fuel : Nat) :
    (∀ depth cs, Accounts depth cs (value depth fuel cs)) ∧
    (∀ depth cs, Accounts depth cs (items depth fuel cs)) ∧
    (∀ depth seen cs, Accounts depth cs (members depth fuel seen cs)) := by
  induction fuel with
  | zero =>
      refine ⟨fun depth cs => ?_, fun depth cs => ?_, fun depth seen cs => ?_⟩
      · rw [value]
        exact accounts_error trivial
      · rw [items]
        exact accounts_error trivial
      · rw [members]
        exact accounts_error trivial
  | succ fuel ih =>
      obtain ⟨hvalue, hitems, hmembers⟩ := ih
      exact ⟨accounts_value_succ hitems hmembers, accounts_items_succ hvalue hitems,
        accounts_members_succ hvalue hmembers⟩

theorem accounted_of_parseChars {depth : Nat} {text : List Char} {e : Failure}
    (h : parseChars depth text = .error e) : e.Accounted depth text := by
  rw [parseChars.eq_def] at h
  split at h
  · cases h
    trivial
  · split at h
    · next e' he =>
        cases h
        exact (((accounts_read _).1 depth _).2 e he).of_suffix (skipSpace_suffix text)
    · split at h
      · cases h
      · cases h
        trivial

/-- Within the limits, the only faults are those of syntax. -/
theorem parse_of_withinLimits {depth : Nat} {text : List Char} (h : WithinLimits depth text) :
    (∀ e, parse depth text ≠ .error (.digits e)) ∧
      ∀ e, parse depth text ≠ .error (.tooDeep e) := by
  cases hread : parseChars depth text with
  | ok v => simp [parse, hread]
  | error e =>
      have haccounted := accounted_of_parseChars hread
      cases e with
      | syntaxAt cause left => simp [parse, hread]
      | digits e =>
          obtain ⟨run, hrun, hall, hlong⟩ := haccounted
          exact absurd (h.1 run hrun hall) (Nat.not_le_of_lt hlong)
      | tooDeep e => exact absurd h.2 (Nat.not_le_of_lt haccounted)

/-- A text of nothing but digits goes beyond the limit if it is too long. -/
theorem parse_replicate_digit {m : Nat} (h : Text.maxDigits ≤ m) (depth : Nat) :
    parse depth ('1' :: List.replicate m '1') = .error (.digits ⟨m + 1⟩) := by
  have hrun : digitRun ('1' :: List.replicate m '1') = ('1' :: List.replicate m '1', []) := by
    rw [← List.replicate_succ, digitRun, List.takeWhile_replicate, List.dropWhile_replicate]
    rfl
  have hwhole : wholePart? ('1' :: List.replicate m '1') =
      some ('1' :: List.replicate m '1', []) := by
    rw [wholePart?, hrun]
    rintro rest ⟨⟩
  have hdigits : Text.readDigits ('1' :: List.replicate m '1') = .error ⟨m + 1⟩ := by
    rw [Text.readDigits, List.length_cons, List.length_replicate, if_neg (by omega)]
  have hvalue : ∀ fuel, value depth (fuel + 1) (skipSpace ('1' :: List.replicate m '1')) =
      .error (.digits ⟨m + 1⟩) := by
    intro fuel
    show (unsignedNumber false ('1' :: List.replicate m '1')).getD _ = _
    rw [unsignedNumber, hwhole]
    dsimp only
    rw [hdigits]
    rfl
  have hchars : parseChars depth ('1' :: List.replicate m '1') = .error (.digits ⟨m + 1⟩) := by
    rw [parseChars, hvalue]
    rintro rest ⟨⟩
  rw [parse, hchars]

/-- What is wrong with the values of an array is wrong with the array. -/
theorem value_of_items_error {depth fuel : Nat} {rest : List Char} {e : Failure}
    (hopen : ∀ after, skipSpace rest ≠ ']' :: after)
    (h : items depth fuel (skipSpace rest) = .error e) :
    value (depth + 1) (fuel + 1) ('[' :: rest) = .error e := by
  rw [value.eq_def]
  dsimp only
  split
  · next heq => cases heq
  · next heq =>
      cases heq
      split
      · next after heq => exact absurd heq (hopen after)
      · rw [h]
  · next heq => cases heq
  · next hne _ => exact absurd rfl (hne rest)


theorem value_replicate_bracket (depth fuel : Nat) :
    value depth (2 * depth + fuel + 1) (List.replicate (depth + 1) '[') =
      .error (.tooDeep .readingArray) := by
  induction depth with
  | zero => rfl
  | succ depth ih =>
      have hitems : items depth (2 * depth + fuel + 2) (List.replicate (depth + 1) '[') =
          .error (.tooDeep .readingArray) := by
        rw [items, ih]
      have hfuel : 2 * (depth + 1) + fuel + 1 = 2 * depth + fuel + 2 + 1 := by omega
      rw [hfuel, List.replicate_succ]
      refine value_of_items_error (fun after heq => ?_) hitems
      exact absurd (List.head_eq_of_cons_eq heq) (by decide)

/-- A text of nothing but brackets goes beyond the limit if it opens one more than may be nested. -/
theorem parse_replicate_bracket (depth : Nat) :
    parse depth (List.replicate (depth + 1) '[') = .error (.tooDeep .readingArray) := by
  have hfuel : 2 * (List.replicate (depth + 1) '[').length + 2 = 2 * depth + 3 + 1 := by
    rw [List.length_replicate]
    omega
  have hvalue : value depth (2 * (List.replicate (depth + 1) '[').length + 2)
      (skipSpace (List.replicate (depth + 1) '[')) = .error (.tooDeep .readingArray) := by
    rw [hfuel]
    exact value_replicate_bracket depth 3
  have hchars : parseChars depth (List.replicate (depth + 1) '[') =
      .error (.tooDeep .readingArray) := by
    rw [parseChars, hvalue]
    rintro rest ⟨⟩
  rw [parse, hchars]

end SketchBuild.Json
