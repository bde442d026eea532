import SketchBuild.Text.Utf8

/-!
# Well-formed UTF-8

A scan finds a character exactly where the bytes of one stand, so strict decoding accepts the
encodings of texts and nothing else:

    scan_eq_char_iff : scan b bs = .char c n ↔
      ∃ tail rest, bs = tail ++ rest ∧ String.utf8EncodeChar c = b :: tail ∧ n = tail.length + 1
    decodeStrict_eq_ok_iff : decodeStrict bs = .ok cs ↔ bs = encode cs
-/

namespace SketchBuild.Text.Utf8

/-! ## One character -/

theorem scanTail_succ_eq_char_iff {need lo hi bits size n : Nat} {bs : List UInt8} {c : Char} :
    scanTail (need + 1) lo hi bits size bs = .char c n ↔
      ∃ b rest, bs = b :: rest ∧ (lo ≤ b.toNat ∧ b.toNat ≤ hi) ∧
        scanTail need 0x80 0xBF (bits * 64 + (b.toNat - 0x80)) (size + 1) rest = .char c n := by
  cases bs with
  | nil => simp [scanTail]
  | cons b rest =>
      rw [scanTail]
      constructor
      · intro h
        split at h
        · next hb => exact ⟨b, rest, rfl, hb, h⟩
        · cases h
      · rintro ⟨_, _, heq, hb, h⟩
        cases heq
        rwa [if_pos hb]

theorem scanTail_zero_eq_char_iff {lo hi bits size n : Nat} {bs : List UInt8} {c : Char} :
    scanTail 0 lo hi bits size bs = .char c n ↔ Char.ofNat bits = c ∧ size = n := by
  rw [scanTail, Scan.char.injEq]

theorem toNat_ofNat_of_lt {n : Nat} (h : n < 256) : (UInt8.ofNat n).toNat = n := by
  rw [UInt8.toNat_ofNat', Nat.mod_eq_of_lt h]

/-- The bytes of a character are scanned as that character, whatever follows. -/
theorem scan_of_encoded {c : Char} {b : UInt8} {tail : List UInt8}
    (h : String.utf8EncodeChar c = b :: tail) (rest : List UInt8) :
    scan b (tail ++ rest) = .char c (tail.length + 1) := by
  have hc : Char.ofNat c.toNat = c := Char.ofNat_toNat c
  have hvalid : c.toNat < 0xD800 ∨ 0xDFFF < c.toNat ∧ c.toNat < 0x110000 := c.valid
  rw [String.utf8EncodeChar, show c.val.toNat = c.toNat from rfl] at h
  generalize c.toNat = v at h hc hvalid
  unfold scan
  -- one case for each number of bytes; the first byte tells which it is
  split at h
  · obtain ⟨rfl, rfl⟩ := List.cons.inj h
    rw [toNat_ofNat_of_lt (by omega), if_pos (by omega), hc]
    rfl
  · split at h
    · obtain ⟨rfl, rfl⟩ := List.cons.inj h
      rw [toNat_ofNat_of_lt (by omega), if_neg (by omega), if_neg (by omega), if_pos (by omega)]
      refine scanTail_succ_eq_char_iff.mpr ⟨_, _, rfl, ?_⟩
      rw [toNat_ofNat_of_lt (by omega), scanTail_zero_eq_char_iff]
      exact ⟨by omega, (congrArg Char.ofNat (by omega)).trans hc, rfl⟩
    · split at h
      · obtain ⟨rfl, rfl⟩ := List.cons.inj h
        rw [toNat_ofNat_of_lt (by omega), if_neg (by omega), if_neg (by omega), if_neg (by omega),
          if_pos (by omega)]
        refine scanTail_succ_eq_char_iff.mpr ⟨_, _, rfl, ?_⟩
        rw [toNat_ofNat_of_lt (by omega)]
        refine ⟨by split <;> split <;> omega, scanTail_succ_eq_char_iff.mpr ⟨_, _, rfl, ?_⟩⟩
        rw [toNat_ofNat_of_lt (by omega), scanTail_zero_eq_char_iff]
        exact ⟨by omega, (congrArg Char.ofNat (by omega)).trans hc, rfl⟩
      · obtain ⟨rfl, rfl⟩ := List.cons.inj h
        rw [toNat_ofNat_of_lt (by omega), if_neg (by omega), if_neg (by omega), if_neg (by omega),
          if_neg (by omega), if_pos (by omega)]
        refine scanTail_succ_eq_char_iff.mpr ⟨_, _, rfl, ?_⟩
        rw [toNat_ofNat_of_lt (by omega)]
        refine ⟨by split <;> split <;> omega, scanTail_succ_eq_char_iff.mpr ⟨_, _, rfl, ?_⟩⟩
        rw [toNat_ofNat_of_lt (by omega)]
        refine ⟨by omega, scanTail_succ_eq_char_iff.mpr ⟨_, _, rfl, ?_⟩⟩
        rw [toNat_ofNat_of_lt (by omega), scanTail_zero_eq_char_iff]
        exact ⟨by omega, (congrArg Char.ofNat (by omega)).trans hc, rfl⟩

/-- A code that is no half of a surrogate pair is that of a character. -/
theorem val_ofNat {n : Nat} (h : n < 0xD800 ∨ 0xDFFF < n ∧ n < 0x110000) :
    (Char.ofNat n).val.toNat = n := by
  rw [Char.ofNat, dif_pos h]
  rfl

theorem ofNat_eq_of_toNat {b : UInt8} {n : Nat} (h : n = b.toNat) : UInt8.ofNat n = b := by
  rw [h, UInt8.ofNat_toNat]

/-- Only the bytes of a character are scanned as one. -/
theorem encoded_of_scan {c : Char} {b : UInt8} {bs : List UInt8} {n : Nat}
    (h : scan b bs = .char c n) :
    ∃ tail rest, bs = tail ++ rest ∧ String.utf8EncodeChar c = b :: tail ∧ n = tail.length + 1 := by
  have hb : b.toNat < 256 := b.toNat_lt
  unfold scan at h
  dsimp only at h
  split at h
  · obtain ⟨rfl, rfl⟩ := Scan.char.inj h
    refine ⟨[], bs, rfl, ?_, rfl⟩
    rw [String.utf8EncodeChar, val_ofNat (by omega), if_pos (by omega), UInt8.ofNat_toNat]
  · split at h
    · cases h
    · split at h
      · obtain ⟨b₁, rest, rfl, h₁, h⟩ := scanTail_succ_eq_char_iff.mp h
        obtain ⟨rfl, rfl⟩ := scanTail_zero_eq_char_iff.mp h
        refine ⟨[b₁], rest, rfl, ?_, rfl⟩
        rw [String.utf8EncodeChar, val_ofNat (by omega), if_neg (by omega), if_pos (by omega)]
        rw [ofNat_eq_of_toNat (b := b) (by omega), ofNat_eq_of_toNat (b := b₁) (by omega)]
      · split at h
        · obtain ⟨b₁, rest, rfl, h₁, h⟩ := scanTail_succ_eq_char_iff.mp h
          obtain ⟨b₂, rest, rfl, h₂, h⟩ := scanTail_succ_eq_char_iff.mp h
          have h₁ : 0x80 ≤ b₁.toNat ∧ b₁.toNat ≤ 0xBF ∧ (b.toNat = 0xE0 → 0xA0 ≤ b₁.toNat) ∧
              (b.toNat = 0xED → b₁.toNat ≤ 0x9F) := by
            split at h₁ <;> split at h₁ <;> omega
          obtain ⟨rfl, rfl⟩ := scanTail_zero_eq_char_iff.mp h
          refine ⟨[b₁, b₂], rest, rfl, ?_, rfl⟩
          rw [String.utf8EncodeChar, val_ofNat (by omega), if_neg (by omega), if_neg (by omega),
            if_pos (by omega)]
          rw [ofNat_eq_of_toNat (b := b) (by omega), ofNat_eq_of_toNat (b := b₁) (by omega),
            ofNat_eq_of_toNat (b := b₂) (by omega)]
        · split at h
          · obtain ⟨b₁, rest, rfl, h₁, h⟩ := scanTail_succ_eq_char_iff.mp h
            obtain ⟨b₂, rest, rfl, h₂, h⟩ := scanTail_succ_eq_char_iff.mp h
            obtain ⟨b₃, rest, rfl, h₃, h⟩ := scanTail_succ_eq_char_iff.mp h
            have h₁ : 0x80 ≤ b₁.toNat ∧ b₁.toNat ≤ 0xBF ∧ (b.toNat = 0xF0 → 0x90 ≤ b₁.toNat) ∧
                (b.toNat = 0xF4 → b₁.toNat ≤ 0x8F) := by
              split at h₁ <;> split at h₁ <;> omega
            obtain ⟨rfl, rfl⟩ := scanTail_zero_eq_char_iff.mp h
            refine ⟨[b₁, b₂, b₃], rest, rfl, ?_, rfl⟩
            rw [String.utf8EncodeChar, val_ofNat (by omega), if_neg (by omega), if_neg (by omega),
              if_neg (by omega)]
            rw [ofNat_eq_of_toNat (b := b) (by omega), ofNat_eq_of_toNat (b := b₁) (by omega),
              ofNat_eq_of_toNat (b := b₂) (by omega), ofNat_eq_of_toNat (b := b₃) (by omega)]
          · cases h

/-- **A scan finds exactly the characters that were encoded.** -/
theorem scan_eq_char_iff {c : Char} {b : UInt8} {bs : List UInt8} {n : Nat} :
    scan b bs = .char c n ↔
      ∃ tail rest, bs = tail ++ rest ∧ String.utf8EncodeChar c = b :: tail ∧
        n = tail.length + 1 := by
  refine ⟨encoded_of_scan, ?_⟩
  rintro ⟨tail, rest, rfl, hc, rfl⟩
  exact scan_of_encoded hc rest

/-! ## Whole texts -/

theorem encode_cons (c : Char) (cs : List Char) :
    encode (c :: cs) = String.utf8EncodeChar c ++ encode cs :=
  List.flatMap_cons

theorem decodeFrom_encode (position : Nat) (cs : List Char) :
    decodeFrom position (encode cs) = .ok cs := by
  induction cs generalizing position with
  | nil => simp [encode, decodeFrom]
  | cons c cs ih =>
      obtain ⟨b, tail, hc⟩ := List.exists_cons_of_ne_nil (String.utf8EncodeChar_ne_nil (c := c))
      rw [encode_cons, hc, List.cons_append, decodeFrom, scan_of_encoded hc]
      simp [ih]

theorem eq_encode_of_decodeFrom {position : Nat} {bs : List UInt8} {cs : List Char}
    (h : decodeFrom position bs = .ok cs) : bs = encode cs := by
  fun_induction decodeFrom position bs generalizing cs with
  | case1 position =>
      cases h
      rfl
  | case2 position b bs reason size hscan => cases h
  | case3 position b bs c size hscan e hrest ih => cases h
  | case4 position b bs c size hscan cs' hrest ih =>
      cases h
      obtain ⟨tail, rest, rfl, hc, rfl⟩ := scan_eq_char_iff.mp hscan
      rw [encode_cons, hc, ← ih hrest]
      simp

/-- **Strict decoding accepts exactly the encodings of texts.** -/
theorem decodeStrict_eq_ok_iff {bs : List UInt8} {cs : List Char} :
    decodeStrict bs = .ok cs ↔ bs = encode cs := by
  refine ⟨eq_encode_of_decodeFrom, ?_⟩
  rintro rfl
  exact decodeFrom_encode 0 cs

theorem encode_inj {cs cs' : List Char} : encode cs = encode cs' ↔ cs = cs' := by
  refine ⟨fun h => ?_, congrArg encode⟩
  have hcs := decodeStrict_eq_ok_iff.mpr (rfl : encode cs = encode cs)
  exact Except.ok.inj (hcs.symm.trans (decodeStrict_eq_ok_iff.mpr h))

end SketchBuild.Text.Utf8
