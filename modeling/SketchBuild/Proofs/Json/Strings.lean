import SketchBuild.Json.Printer
import SketchBuild.Json.Reader
import SketchBuild.Proofs.Json.Canonical

/-!
# Strings, written and read

What `stringBody` reads is taken apart by one equivalence, `stringBody_eq_ok_iff`. It gives both
directions: pieces that were written come back (`stringBody_write`) unless two of them make a
surrogate pair, and what is read never holds such a pair (`parted_of_stringBody`).
-/

namespace SketchBuild.Json

open Text (Half Piece hex parted)

/-! ## Hexadecimal digits -/

/-- The digits of a unit of sixteen bits. -/
theorem hex_four {n : Nat} (h : n < 0x10000) :
    hex 4 n = [Nat.digitChar (n / 0x1000), Nat.digitChar (n / 0x100 % 16),
      Nat.digitChar (n / 0x10 % 16), Nat.digitChar (n % 16)] := by
  have hstep : ∀ {m : Nat}, 16 ≤ m →
      Nat.toDigits 16 m = Nat.toDigits 16 (m / 16) ++ [Nat.digitChar (m % 16)] :=
    fun hm => Nat.toDigits_of_base_le (by decide) hm
  have hlast : ∀ {m : Nat}, m < 16 → Nat.toDigits 16 m = [Nat.digitChar m] :=
    fun hm => Nat.toDigits_of_lt_base hm
  have hzero : '0' = Nat.digitChar 0 := rfl
  rw [hex]
  -- the digits that the number has, and a zero for each one that it lacks
  rcases Nat.lt_or_ge n 0x10 with h1 | h1
  · rw [hlast h1, hzero, show n / 0x1000 = 0 by omega, show n / 0x100 % 16 = 0 by omega,
      show n / 0x10 % 16 = 0 by omega, show n % 16 = n by omega]
    rfl
  · rcases Nat.lt_or_ge n 0x100 with h2 | h2
    · rw [hstep h1, hlast (by omega), hzero, show n / 0x1000 = 0 by omega,
        show n / 0x100 % 16 = 0 by omega, show n / 0x10 % 16 = n / 0x10 by omega]
      rfl
    · rcases Nat.lt_or_ge n 0x1000 with h3 | h3
      · rw [hstep h1, hstep (by omega), hlast (by omega), hzero, show n / 0x1000 = 0 by omega,
          show n / 16 / 16 = n / 0x100 by omega, show n / 0x100 % 16 = n / 0x100 by omega]
        rfl
      · rw [hstep h1, hstep (by omega), hstep (by omega), hlast (by omega),
          show n / 16 / 16 / 16 = n / 0x1000 by omega, show n / 16 / 16 = n / 0x100 by omega]
        rfl

theorem hexValue?_digitChar {d : Nat} (h : d < 16) : hexValue? (Nat.digitChar d) = some d := by
  have hall : ∀ d < 16, hexValue? (Nat.digitChar d) = some d := by decide
  exact hall d h

theorem hexQuad?_hex {n : Nat} (h : n < 0x10000) : hexQuad? (hex 4 n) = some n := by
  rw [hex_four h]
  simp only [hexQuad?, hexValue?_digitChar (show n / 0x1000 < 16 by omega),
    hexValue?_digitChar (show n / 0x100 % 16 < 16 by omega),
    hexValue?_digitChar (show n / 0x10 % 16 < 16 by omega),
    hexValue?_digitChar (show n % 16 < 16 by omega), Option.bind_eq_bind, Option.bind_some,
    Option.pure_def, Option.some.injEq]
  omega

theorem length_hex {n : Nat} (h : n < 0x10000) : (hex 4 n).length = 4 := by
  rw [hex_four h]
  rfl

theorem take_hex {n : Nat} (h : n < 0x10000) (rest : List Char) :
    (hex 4 n ++ rest).take 4 = hex 4 n := by
  rw [hex_four h]
  rfl

theorem drop_hex {n : Nat} (h : n < 0x10000) (rest : List Char) :
    (hex 4 n ++ rest).drop 4 = rest := by
  rw [hex_four h]
  rfl

/-! ## Taking a string apart -/

theorem stringBody_eq_ok_iff {start : Nat} {cs tail : List Char} {ps : List Piece} :
    stringBody start cs = .ok (ps, tail) ↔
      (cs = '"' :: tail ∧ ps = []) ∨
      (∃ rest p after qs, cs = '\\' :: rest ∧ escape rest = .ok (p, after) ∧
        stringBody start after = .ok (qs, tail) ∧ ps = p :: qs) ∨
      ∃ c rest qs, cs = c :: rest ∧ c ≠ '"' ∧ c ≠ '\\' ∧ 0x20 ≤ c.toNat ∧
        stringBody start rest = .ok (qs, tail) ∧ ps = .char c :: qs := by
  constructor
  · intro h
    rw [stringBody.eq_def] at h
    split at h
    · cases h
    · cases h
      exact .inl ⟨rfl, rfl⟩
    · next rest =>
        split at h
        · cases h
        · cases h
        · next p after he =>
            dsimp only at h
            split at h
            · cases h
            · next qs tail' hqs =>
                cases h
                exact .inr (.inl ⟨rest, p, after, qs, rfl, he, hqs, rfl⟩)
    · next c rest hquote hslash =>
        split at h
        · cases h
        · next hc =>
            split at h
            · cases h
            · next qs tail' hqs =>
                cases h
                exact .inr (.inr ⟨c, rest, qs, rfl, hquote, hslash, Nat.le_of_not_lt hc,
                  hqs, rfl⟩)
  · rintro (⟨rfl, rfl⟩ | ⟨rest, p, after, qs, rfl, he, hqs, rfl⟩ |
      ⟨c, rest, qs, rfl, hquote, hslash, hc, hqs, rfl⟩)
    · rw [stringBody]
    · rw [stringBody]
      split
      · next h => cases h.symm.trans he
      · next _ h => cases h.symm.trans he
      · next h =>
          cases h.symm.trans he
          rw [hqs]
    · rw [stringBody]
      · rw [if_neg (by omega), hqs]
      · exact hquote
      · exact hslash

/-- What holds of an empty body, and of a body if it holds of what follows its first piece, holds of
every body that is read. -/
theorem stringBody_ind {start : Nat} {tail : List Char} {motive : List Char → List Piece → Prop}
    (quote : motive ('"' :: tail) [])
    (escaped : ∀ rest p after qs, escape rest = .ok (p, after) →
      stringBody start after = .ok (qs, tail) → motive after qs → motive ('\\' :: rest) (p :: qs))
    (plain : ∀ c rest qs, c ≠ '"' → stringBody start rest = .ok (qs, tail) → motive rest qs →
      motive (c :: rest) (.char c :: qs))
    {cs : List Char} {ps : List Piece} (h : stringBody start cs = .ok (ps, tail)) :
    motive cs ps := by
  induction hn : cs.length using Nat.strongRecOn generalizing cs ps with
  | ind n ih =>
      obtain ⟨rfl, rfl⟩ | ⟨rest, p, after, qs, rfl, he, hqs, rfl⟩ |
          ⟨c, rest, qs, rfl, hquote, -, -, hqs, rfl⟩ := stringBody_eq_ok_iff.mp h
      · exact quote
      · have hshorter : after.length < rest.length := escape_length he
        rw [List.length_cons] at hn
        exact escaped rest p after qs he hqs (ih after.length (by omega) hqs rfl)
      · rw [List.length_cons] at hn
        exact plain c rest qs hquote hqs (ih rest.length (by omega) hqs rfl)

theorem ne_nil_of_stringBody {start : Nat} {cs tail : List Char} {ps : List Piece}
    (h : stringBody start cs = .ok (ps, tail)) : cs ≠ [] := by
  rintro rfl
  rw [stringBody] at h
  cases h

/-! ## Escapes -/

theorem escape_short {c e : Char} (h : shortEscape? c = some e) (rest : List Char) :
    escape (c :: rest) = .ok (.char e, rest) := by
  rw [escape]
  · rw [h]
  · rintro rfl
    cases h

/-- A second half is seen where its escape follows with one character more. -/
theorem lowSurrogate?_unit {n : Nat} (hn : n < 0x10000) {rest : List Char} (hne : rest ≠ []) :
    lowSurrogate? ('\\' :: 'u' :: (hex 4 n ++ rest)) =
      .ok (if 0xDC00 ≤ n ∧ n ≤ 0xDFFF then some n else none) := by
  have hlen : 6 < ('\\' :: 'u' :: (hex 4 n ++ rest)).length := by
    have := List.length_pos_iff.mpr hne
    simp only [List.length_cons, List.length_append, length_hex hn]
    omega
  rw [lowSurrogate?, if_pos (by simpa using hlen), List.drop_succ_cons, List.drop_succ_cons,
    List.drop_zero, take_hex hn, hexQuad?_hex hn]

theorem lowSurrogate?_eq_none {cs : List Char} (h : ∀ rest, cs ≠ '\\' :: 'u' :: rest) :
    lowSurrogate? cs = .ok none := by
  have hstart : (['\\', 'u'].isPrefixOf cs) = false := by
    rw [Bool.eq_false_iff]
    intro hp
    obtain ⟨rest, hrest⟩ := List.isPrefixOf_iff_prefix.mp hp
    exact h rest hrest.symm
  rw [lowSurrogate?, hstart, Bool.and_false]
  rfl

theorem escape_unit {n : Nat} (hn : n < 0x10000) {rest : List Char} (hne : rest ≠ [])
    (hpair : 0xD800 ≤ n ∧ n ≤ 0xDBFF → lowSurrogate? rest = .ok none) :
    escape ('u' :: (hex 4 n ++ rest)) = .ok (pieceOfCode n, rest) := by
  have hlen : ¬ (hex 4 n ++ rest).length ≤ 4 := by
    have := List.length_pos_iff.mpr hne
    rw [List.length_append, length_hex hn]
    omega
  rw [escape, if_neg hlen, take_hex hn, drop_hex hn, hexQuad?_hex hn]
  dsimp only
  split
  · next hfirst => rw [hpair hfirst]
  · rfl

theorem escape_pair {n m : Nat} (hn : 0xD800 ≤ n ∧ n ≤ 0xDBFF) (hm : 0xDC00 ≤ m ∧ m ≤ 0xDFFF)
    {rest : List Char} (hne : rest ≠ []) :
    escape ('u' :: (hex 4 n ++ '\\' :: 'u' :: (hex 4 m ++ rest))) =
      .ok (.char (Char.ofNat (0x10000 + (n - 0xD800) * 0x400 + (m - 0xDC00))), rest) := by
  have hn' : n < 0x10000 := by omega
  have hm' : m < 0x10000 := by omega
  have hlen : ¬ (hex 4 n ++ '\\' :: 'u' :: (hex 4 m ++ rest)).length ≤ 4 := by
    simp only [List.length_append, length_hex hn', List.length_cons]
    omega
  have hall : (hex 4 n ++ '\\' :: 'u' :: (hex 4 m ++ rest)).drop 10 = rest := by
    rw [show 10 = 4 + (2 + 4) from rfl, ← List.drop_drop, drop_hex hn', ← List.drop_drop,
      List.drop_succ_cons, List.drop_succ_cons, List.drop_zero, drop_hex hm']
  rw [escape, if_neg hlen, take_hex hn', drop_hex hn', hall, hexQuad?_hex hn']
  dsimp only
  rw [if_pos hn, lowSurrogate?_unit hm' hne, if_pos hm]

/-! ## Pieces -/

/-- A character below `0x10000` is told by its code. -/
theorem pieceOfCode_toNat {c : Char} : pieceOfCode c.toNat = .char c := by
  have hvalid : c.toNat < 0xD800 ∨ 0xDFFF < c.toNat ∧ c.toNat < 0x110000 := c.valid
  rw [pieceOfCode, Half.ofCode?, dif_neg (by omega), Char.ofNat_toNat]

theorem pieceOfCode_code (h : Half) : pieceOfCode h.code = .half h := by
  obtain ⟨i, hi⟩ := h
  have hcode : Half.code ⟨i, hi⟩ = 0xD800 + i := rfl
  rw [pieceOfCode, Half.ofCode?, dif_pos (by omega)]
  simp only [hcode, Nat.add_sub_cancel_left]

theorem Half.code_lt (h : Half) : h.code < 0x10000 := by
  have := h.index.isLt
  rw [Half.code]
  omega

/-- How a written character begins: with itself, or with a backslash and a letter. -/
theorem writeChar_cases (c : Char) :
    (∃ e, shortEscape? e = some c ∧ writeChar c = ['\\', e]) ∨
    (c ≠ '"' ∧ c ≠ '\\' ∧ (0x20 ≤ c.toNat ∧ c.toNat < 0x7F) ∧ writeChar c = [c]) ∨
    (c.toNat < 0x10000 ∧ writeChar c = '\\' :: 'u' :: hex 4 c.toNat) ∨
    (0x10000 ≤ c.toNat ∧ writeChar c =
      '\\' :: 'u' :: (hex 4 (0xD800 + (c.toNat - 0x10000) / 0x400) ++
        '\\' :: 'u' :: hex 4 (0xDC00 + (c.toNat - 0x10000) % 0x400))) := by
  have hcode : ∀ {d : Char}, c.toNat = d.toNat → c = d := Char.toNat_inj.mp
  by_cases hquote : c = '"'
  · exact .inl ⟨'"', by rw [hquote]; rfl, by rw [hquote]; rfl⟩
  by_cases hslash : c = '\\'
  · exact .inl ⟨'\\', by rw [hslash]; rfl, by rw [hslash]; rfl⟩
  by_cases hn : c = '\n'
  · exact .inl ⟨'n', by rw [hn]; rfl, by rw [hn]; rfl⟩
  by_cases hr : c = '\r'
  · exact .inl ⟨'r', by rw [hr]; rfl, by rw [hr]; rfl⟩
  by_cases ht : c = '\t'
  · exact .inl ⟨'t', by rw [ht]; rfl, by rw [ht]; rfl⟩
  by_cases hb : c.toNat = 0x08
  · exact .inl ⟨'b', by rw [hcode (d := '\x08') hb]; rfl, by rw [hcode (d := '\x08') hb]; rfl⟩
  by_cases hf : c.toNat = 0x0C
  · exact .inl ⟨'f', by rw [hcode (d := '\x0c') hf]; rfl, by rw [hcode (d := '\x0c') hf]; rfl⟩
  right
  rw [writeChar, if_neg hquote, if_neg hslash, if_neg hn, if_neg hr, if_neg ht, if_neg hb,
    if_neg hf]
  split
  · next hplain => exact .inl ⟨hquote, hslash, hplain, rfl⟩
  · split
    · next hunit => exact .inr (.inl ⟨hunit, rfl⟩)
    · next hpair =>
        rw [List.cons_append, List.cons_append]
        exact .inr (.inr ⟨Nat.le_of_not_lt hpair, rfl⟩)

theorem ne_u_of_shortEscape? {e c : Char} (h : shortEscape? e = some c) : e ≠ 'u' := by
  rintro rfl
  cases h

/-- Only a second half is written so that it is seen as one. -/
theorem lowSurrogate?_writePiece {p : Piece} (hp : ∀ h, p = .half h → h.isFirst = true)
    {rest : List Char} (hne : rest ≠ []) : lowSurrogate? (writePiece p ++ rest) = .ok none := by
  cases p with
  | half h =>
      have hfirst : h.code < 0xDC00 := of_decide_eq_true (hp h rfl)
      rw [writePiece, Half.escape, List.cons_append, List.cons_append,
        lowSurrogate?_unit (Half.code_lt h) hne, if_neg (by omega)]
  | char c =>
      have hvalid : c.toNat < 0xD800 ∨ 0xDFFF < c.toNat ∧ c.toNat < 0x110000 := c.valid
      rw [writePiece]
      obtain ⟨e, he, hw⟩ | ⟨-, hslash, -, hw⟩ | ⟨hc, hw⟩ | ⟨hc, hw⟩ := writeChar_cases c
      · rw [hw]
        refine lowSurrogate?_eq_none fun r hr => ?_
        exact ne_u_of_shortEscape? he (List.cons.inj (List.cons.inj hr).2).1
      · rw [hw]
        exact lowSurrogate?_eq_none fun r hr => hslash (List.cons.inj hr).1
      · rw [hw, List.cons_append, List.cons_append, lowSurrogate?_unit hc hne, if_neg (by omega)]
      · rw [hw, List.cons_append, List.cons_append, List.append_assoc, List.cons_append,
          lowSurrogate?_unit (by omega) (List.cons_ne_nil _ _), if_neg (by omega)]

/-- A written piece is read, unless it is a first half and a second half follows. -/
theorem stringBody_writePiece {start : Nat} {p : Piece} {cs tail : List Char} {ps : List Piece}
    (h : stringBody start cs = .ok (ps, tail))
    (hp : ∀ h, p = .half h → h.isFirst = true → lowSurrogate? cs = .ok none) :
    stringBody start (writePiece p ++ cs) = .ok (p :: ps, tail) := by
  have hne : cs ≠ [] := ne_nil_of_stringBody h
  have hescape : ∀ {rest}, escape rest = .ok (p, cs) →
      stringBody start ('\\' :: rest) = .ok (p :: ps, tail) :=
    fun he => stringBody_eq_ok_iff.mpr (.inr (.inl ⟨_, p, cs, ps, rfl, he, h, rfl⟩))
  cases p with
  | half f =>
      rw [writePiece, Half.escape, List.cons_append, List.cons_append]
      refine hescape ?_
      rw [escape_unit (Half.code_lt f) hne fun hfirst => hp f rfl (decide_eq_true (by omega)),
        pieceOfCode_code]
  | char c =>
      have hvalid : c.toNat < 0xD800 ∨ 0xDFFF < c.toNat ∧ c.toNat < 0x110000 := c.valid
      rw [writePiece]
      obtain ⟨e, he, hw⟩ | ⟨hquote, hslash, hc, hw⟩ | ⟨hc, hw⟩ | ⟨hc, hw⟩ := writeChar_cases c
      · rw [hw]
        exact hescape (escape_short he cs)
      · rw [hw]
        exact stringBody_eq_ok_iff.mpr
          (.inr (.inr ⟨c, cs, ps, rfl, hquote, hslash, hc.1, h, rfl⟩))
      · rw [hw, List.cons_append, List.cons_append]
        refine hescape ?_
        rw [escape_unit hc hne fun hfirst => absurd hvalid (by omega), pieceOfCode_toNat]
      · rw [hw, List.cons_append, List.cons_append, List.append_assoc, List.cons_append,
          List.cons_append]
        refine hescape ?_
        rw [escape_pair (by omega) (by omega) hne]
        -- the two halves give back the code that was taken apart
        have hcode : 0x10000 + (0xD800 + (c.toNat - 0x10000) / 0x400 - 0xD800) * 0x400 +
            (0xDC00 + (c.toNat - 0x10000) % 0x400 - 0xDC00) = c.toNat := by omega
        rw [hcode, Char.ofNat_toNat]

/-- Pieces come back, in front of whatever follows the quote, if no two of them make a pair. -/
theorem stringBody_write {start : Nat} {ps : List Piece} (h : parted ps = true)
    (tail : List Char) :
    stringBody start (ps.flatMap writePiece ++ '"' :: tail) = .ok (ps, tail) := by
  induction ps with
  | nil => exact stringBody_eq_ok_iff.mpr (.inl ⟨rfl, rfl⟩)
  | cons p ps ih =>
      obtain ⟨hp, hps⟩ := Text.parted_cons.mp h
      rw [List.flatMap_cons, List.append_assoc]
      refine stringBody_writePiece (ih hps) fun f hf hfirst => ?_
      cases ps with
      | nil => exact lowSurrogate?_eq_none fun r hr => absurd (List.cons.inj hr).1 (by decide)
      | cons q qs =>
          rw [List.flatMap_cons, List.append_assoc]
          refine lowSurrogate?_writePiece (fun f' hf' => ?_) (by simp)
          have hjoins := hp q rfl
          rw [hf, hf', Piece.joins, hfirst, Bool.true_and, Bool.not_eq_false'] at hjoins
          exact hjoins

/-! ## What is read -/

theorem escape_eq_half {rest after : List Char} {h : Half}
    (he : escape rest = .ok (.half h, after)) :
    ∃ r, rest = 'u' :: r ∧ 4 < r.length ∧ hexQuad? (r.take 4) = some h.code ∧
      (h.isFirst = true → lowSurrogate? after = .ok none) := by
  have hpiece : ∀ {n}, pieceOfCode n = .half h → n = h.code := by
    intro n hn
    rw [pieceOfCode] at hn
    split at hn
    · next hof =>
        cases hn
        exact (Half.code_of_ofCode? hof).symm
    · cases hn
  rw [escape.eq_def] at he
  split at he
  · cases he
  · next r =>
      split at he
      · cases he
      · next hlen =>
          split at he
          · cases he
          · next n hquad =>
              split at he
              · split at he
                · cases he
                · cases he
                · next hlow =>
                    rw [Except.ok.injEq, Prod.mk.injEq] at he
                    obtain ⟨hcode, rfl⟩ := he
                    exact ⟨r, rfl, Nat.lt_of_not_le hlen, hpiece hcode ▸ hquad, fun _ => hlow⟩
              · next hfirst =>
                  rw [Except.ok.injEq, Prod.mk.injEq] at he
                  obtain ⟨hcode, rfl⟩ := he
                  refine ⟨r, rfl, Nat.lt_of_not_le hlen, hpiece hcode ▸ hquad, fun hf => ?_⟩
                  have hlt : h.code < 0xDC00 := of_decide_eq_true hf
                  have hle : 0xD800 ≤ h.code := Nat.le_add_right _ _
                  exact absurd (hpiece hcode ▸ ⟨hle, by omega⟩) hfirst
  · split at he <;> cases he

/-- Where no second half is seen, none is read. -/
theorem isFirst_of_lowSurrogate? {start : Nat} {cs tail : List Char} {q : Piece} {qs : List Piece}
    (hlow : lowSurrogate? cs = .ok none) (h : stringBody start cs = .ok (q :: qs, tail)) :
    ∀ f, q = .half f → f.isFirst = true := by
  rintro f rfl
  obtain ⟨-, hnil⟩ | ⟨rest, p, after, qs', rfl, he, -, hqs⟩ | ⟨c, rest, qs', -, -, -, -, -, hqs⟩ :=
    stringBody_eq_ok_iff.mp h
  · cases hnil
  · cases hqs
    obtain ⟨r, rfl, hlen, hquad, -⟩ := escape_eq_half he
    have hpos : (decide (6 < ('\\' :: 'u' :: r).length) &&
        ['\\', 'u'].isPrefixOf ('\\' :: 'u' :: r)) = true := by
      simp only [List.length_cons, Bool.and_eq_true, decide_eq_true_eq]
      exact ⟨by omega, rfl⟩
    rw [lowSurrogate?, if_pos hpos, List.drop_succ_cons, List.drop_succ_cons, List.drop_zero,
      hquad] at hlow
    have hcode : f.code ≤ 0xDFFF := by
      have := f.index.isLt
      rw [Half.code]
      omega
    refine Decidable.byContradiction fun hsecond => ?_
    have hge : 0xDC00 ≤ f.code := Nat.le_of_not_lt fun hlt => hsecond (decide_eq_true hlt)
    dsimp only at hlow
    rw [if_pos ⟨hge, hcode⟩] at hlow
    cases hlow
  · cases hqs

/-- No two neighbours among the pieces that are read make a surrogate pair. -/
theorem parted_of_stringBody {start : Nat} {cs tail : List Char} {ps : List Piece}
    (h : stringBody start cs = .ok (ps, tail)) : parted ps = true := by
  refine stringBody_ind (motive := fun _ ps => parted ps = true) rfl ?_ ?_ h
  · intro rest p after qs he hqs ih
    refine Text.parted_cons.mpr ⟨fun q hq => ?_, ih⟩
    obtain ⟨qs', rfl⟩ : ∃ qs', qs = q :: qs' := List.head?_eq_some_iff.mp hq
    cases p with
    | char c => rfl
    | half f =>
        cases q with
        | char c => rfl
        | half f' =>
            obtain ⟨-, -, -, -, hlow⟩ := escape_eq_half he
            rw [Piece.joins, Bool.and_eq_false_iff, Bool.not_eq_false']
            cases hf : f.isFirst with
            | false => exact .inl rfl
            | true => exact .inr (isFirst_of_lowSurrogate? (hlow hf) hqs f' rfl)
  · intro c rest qs _ _ ih
    exact Text.parted_cons.mpr ⟨fun q _ => rfl, ih⟩

end SketchBuild.Json
