import SketchBuild.Proofs.Text.Utf8
import SketchBuild.Tool.Basic

/-!
# Noise in decoded text

Bytes that are no text are decoded all the same: each ill-formed part becomes one replacement
character. What such a part is can be said by the encodings of characters alone (`IllFormed`): no
character stands there, and the part is as long as it can be while it still begins one. `Decoded`
relates bytes to their text by this rule, and decoding computes it:

    decode_eq_iff : decode bs = cs ↔ Decoded bs cs

The bytes of a text never join with what follows them, so noise leaves the text before it alone.
-/

namespace SketchBuild.Text.Utf8

/-! ## Ill-formed parts -/

/-- The bytes of some character start with these. -/
def Begins (part : List UInt8) : Prop := ∃ c, part <+: String.utf8EncodeChar c

/-- No character stands at the front of `part ++ rest`, and `part` is the longest front that still
begins one, or a single byte. -/
structure IllFormed (part rest : List UInt8) : Prop where
  ne_nil : part ≠ []
  no_char : ∀ c, ¬ String.utf8EncodeChar c <+: part ++ rest
  begins : part.length = 1 ∨ Begins part
  maximal : ∀ b ∈ rest.head?, ¬ Begins (part ++ [b])

/-- Bytes and their text, in which one replacement character stands for each ill-formed part. -/
inductive Decoded : List UInt8 → List Char → Prop
  | nil : Decoded [] []
  | char {c : Char} {bs : List UInt8} {cs : List Char} :
      Decoded bs cs → Decoded (String.utf8EncodeChar c ++ bs) (c :: cs)
  | noise {part bs : List UInt8} {cs : List Char} :
      IllFormed part bs → Decoded bs cs → Decoded (part ++ bs) ('\ufffd' :: cs)

theorem Begins.of_prefix {part part' : List UInt8} (h : Begins part') (hpre : part <+: part') :
    Begins part := by
  obtain ⟨c, hc⟩ := h
  exact ⟨c, hpre.trans hc⟩

namespace IllFormed

variable {part part' rest rest' : List UInt8}

/-- Of two ill-formed parts of the same bytes, none is longer. -/
theorem prefix_of_append_eq (h : IllFormed part rest) (h' : IllFormed part' rest')
    (heq : part ++ rest = part' ++ rest') : part' <+: part := by
  have hpre' : part' <+: part ++ rest := heq ▸ List.prefix_append part' rest'
  rcases List.prefix_or_prefix_of_prefix hpre' (List.prefix_append part rest) with hle | hle
  · exact hle
  · obtain ⟨more, rfl⟩ := hle
    cases more with
    | nil => simp
    | cons b more =>
        -- the longer part has two bytes or more, so it begins a character
        exfalso
        rw [List.append_assoc, List.append_cancel_left_eq] at heq
        refine h.maximal b (by rw [heq, List.cons_append, List.head?_cons]; rfl) ?_
        have hbegins : Begins (part ++ b :: more) := by
          refine h'.begins.resolve_left fun hlen => ?_
          have hpos := List.length_pos_iff.mpr h.ne_nil
          rw [List.length_append, List.length_cons] at hlen
          omega
        refine hbegins.of_prefix ⟨more, ?_⟩
        rw [List.append_assoc, List.singleton_append]

/-- Bytes have at most one ill-formed part at their front. -/
theorem unique (h : IllFormed part rest) (h' : IllFormed part' rest')
    (heq : part ++ rest = part' ++ rest') : part = part' ∧ rest = rest' := by
  have hpart : part = part' := by
    refine (h'.prefix_of_append_eq h heq.symm).eq_of_length_le ?_
    exact (h.prefix_of_append_eq h' heq).length_le
  subst hpart
  exact ⟨rfl, List.append_cancel_left heq⟩

end IllFormed

/-! ## Scanning an ill-formed part -/

/-- A character can be completed from any place inside it. -/
theorem exists_scanTail_eq_char (need : Nat) {lo hi : Nat} (hle : lo ≤ hi) (hhi : hi < 256)
    (bits size : Nat) : ∃ more c n, scanTail need lo hi bits size more = .char c n := by
  induction need generalizing lo hi bits size with
  | zero => exact ⟨[], _, _, rfl⟩
  | succ need ih =>
      obtain ⟨more, c, n, hmore⟩ := ih (by decide : 0x80 ≤ 0xBF) (by decide)
        (bits * 64 + (lo - 0x80)) (size + 1)
      refine ⟨UInt8.ofNat lo :: more, c, n, scanTail_succ_eq_char_iff.mpr ⟨_, more, rfl, ?_⟩⟩
      rw [toNat_ofNat_of_lt (by omega)]
      exact ⟨⟨Nat.le_refl lo, hle⟩, hmore⟩

/-- Where scanning fails, `read` was read as the inside of a character. The byte after it is to
blame, whatever follows that one. -/
theorem scanTail_eq_bad {need lo hi bits size n : Nat} {bs : List UInt8} {reason : Reason}
    (hle : lo ≤ hi) (hhi : hi < 256) (h : scanTail need lo hi bits size bs = .bad reason n) :
    ∃ read rest, bs = read ++ rest ∧ n = size + read.length ∧
      (∀ b ∈ rest.head?, ∀ more,
        scanTail need lo hi bits size (read ++ b :: more) = .bad reason n) ∧
      ∃ more c m, scanTail need lo hi bits size (read ++ more) = .char c m := by
  induction need generalizing lo hi bits size bs with
  | zero => cases h
  | succ need ih =>
      cases bs with
      | nil =>
          cases h
          exact ⟨[], [], rfl, rfl, by simp, exists_scanTail_eq_char _ hle hhi bits _⟩
      | cons b bs =>
          by_cases hb : lo ≤ b.toNat ∧ b.toNat ≤ hi
          · have hstep : ∀ bs, scanTail (need + 1) lo hi bits size (b :: bs) =
                scanTail need 0x80 0xBF (bits * 64 + (b.toNat - 0x80)) (size + 1) bs :=
              fun bs => by rw [scanTail, if_pos hb]
            rw [hstep] at h
            obtain ⟨read, rest, rfl, rfl, hblame, more, c, m, hmore⟩ :=
              ih (by decide) (by decide) h
            refine ⟨b :: read, rest, rfl, by rw [List.length_cons]; omega, ?_, more, c, m, ?_⟩
            · intro b' hb' more'
              rw [List.cons_append, hstep, hblame b' hb']
            · rw [List.cons_append, hstep, hmore]
          · have hblame : ∀ bs, scanTail (need + 1) lo hi bits size (b :: bs) =
                .bad .continuationByte size := fun bs => by rw [scanTail, if_neg hb]
            rw [hblame] at h
            cases h
            refine ⟨[], b :: bs, rfl, rfl, ?_, exists_scanTail_eq_char _ hle hhi bits _⟩
            intro b' hb' more
            cases hb'
            exact hblame more

/-- The first byte alone decides how the others are read. -/
theorem scan_cases (b : UInt8) :
    (∃ c, ∀ bs, scan b bs = .char c 1) ∨ (∀ bs, scan b bs = .bad .startByte 1) ∨
      ∃ need lo hi bits, lo ≤ hi ∧ hi < 256 ∧ ∀ bs, scan b bs = scanTail need lo hi bits 1 bs := by
  unfold scan
  dsimp only
  by_cases hone : b.toNat < 0x80
  · exact .inl ⟨_, fun _ => if_pos hone⟩
  · by_cases hlone : b.toNat < 0xC2
    · exact .inr (.inl fun _ => by rw [if_neg hone, if_pos hlone])
    · by_cases htwo : b.toNat < 0xE0
      · refine .inr (.inr ⟨1, 0x80, 0xBF, b.toNat - 0xC0, by decide, by decide, fun _ => ?_⟩)
        rw [if_neg hone, if_neg hlone, if_pos htwo]
      · by_cases hthree : b.toNat < 0xF0
        · refine .inr (.inr ⟨2, if b.toNat = 0xE0 then 0xA0 else 0x80,
            if b.toNat = 0xED then 0x9F else 0xBF, b.toNat - 0xE0, ?_, ?_, fun _ => ?_⟩)
          · split <;> split <;> omega
          · split <;> decide
          · rw [if_neg hone, if_neg hlone, if_neg htwo, if_pos hthree]
        · by_cases hfour : b.toNat < 0xF5
          · refine .inr (.inr ⟨3, if b.toNat = 0xF0 then 0x90 else 0x80,
              if b.toNat = 0xF4 then 0x8F else 0xBF, b.toNat - 0xF0, ?_, ?_, fun _ => ?_⟩)
            · split <;> split <;> omega
            · split <;> decide
            · rw [if_neg hone, if_neg hlone, if_neg htwo, if_neg hthree, if_pos hfour]
          · refine .inr (.inl fun _ => ?_)
            rw [if_neg hone, if_neg hlone, if_neg htwo, if_neg hthree, if_neg hfour]

theorem scan_eq_bad {b : UInt8} {bs : List UInt8} {reason : Reason} {n : Nat}
    (h : scan b bs = .bad reason n) :
    ∃ read rest, bs = read ++ rest ∧ n = read.length + 1 ∧
      (∀ b' ∈ rest.head?, ∀ more, scan b (read ++ b' :: more) = .bad reason n) ∧
      (read = [] ∨ ∃ more c m, scan b (read ++ more) = .char c m) := by
  obtain ⟨c, hscan⟩ | hscan | ⟨need, lo, hi, bits, hle, hhi, hscan⟩ := scan_cases b
  · rw [hscan] at h
    cases h
  · rw [hscan] at h
    cases h
    exact ⟨[], bs, rfl, rfl, fun _ _ _ => hscan _, .inl rfl⟩
  · rw [hscan] at h
    obtain ⟨read, rest, hbs, hn, hblame, hmore⟩ := scanTail_eq_bad hle hhi h
    simp only [hscan]
    exact ⟨read, rest, hbs, by omega, hblame, .inr hmore⟩

/-- What is scanned as ill-formed is so. -/
theorem illFormed_of_scan {b : UInt8} {bs : List UInt8} {reason : Reason} {n : Nat}
    (h : scan b bs = .bad reason n) :
    IllFormed (b :: bs.take (n - 1)) (bs.drop (n - 1)) := by
  obtain ⟨read, rest, rfl, rfl, hblame, hread⟩ := scan_eq_bad h
  rw [Nat.add_sub_cancel, List.take_left, List.drop_left]
  have hnochar : ∀ c, ¬ String.utf8EncodeChar c <+: b :: read ++ rest := by
    rintro c ⟨after, hafter⟩
    obtain ⟨b', tail, hc⟩ := List.exists_cons_of_ne_nil (String.utf8EncodeChar_ne_nil (c := c))
    rw [hc, List.cons_append, List.cons_append] at hafter
    obtain ⟨rfl, hrest⟩ := List.cons.inj hafter
    rw [← hrest, scan_of_encoded hc] at h
    cases h
  refine ⟨List.cons_ne_nil _ _, hnochar, ?_, ?_⟩
  · rcases hread with rfl | ⟨more, c, m, hmore⟩
    · exact .inl rfl
    · obtain ⟨tail, after, hsplit, hc, -⟩ := encoded_of_scan hmore
      refine .inr ⟨c, ?_⟩
      rw [hc, List.cons_prefix_cons]
      refine ⟨rfl, ?_⟩
      -- a character that ends inside the part would stand at the front of the bytes
      refine (List.prefix_or_prefix_of_prefix (List.prefix_append read more)
        (hsplit ▸ List.prefix_append tail after)).resolve_right fun hle => hnochar c ?_
      rw [hc, List.cons_append, List.cons_prefix_cons]
      exact ⟨rfl, hle.trans (List.prefix_append read rest)⟩
  · rintro b' hb' ⟨c, more, hc⟩
    rw [List.cons_append, List.cons_append, List.append_assoc, List.singleton_append] at hc
    have hchar := scan_of_encoded hc.symm []
    rw [List.append_nil, hblame b' hb'] at hchar
    cases hchar

/-! ## Decoding -/

theorem decode_encoded_append (c : Char) (bs : List UInt8) :
    decode (String.utf8EncodeChar c ++ bs) = c :: decode bs := by
  obtain ⟨b, tail, hc⟩ := List.exists_cons_of_ne_nil (String.utf8EncodeChar_ne_nil (c := c))
  rw [hc, List.cons_append, decode, scan_of_encoded hc]
  simp [Scan.replaced, Scan.size]

theorem decode_illFormed_append {part rest : List UInt8} (h : IllFormed part rest) :
    decode (part ++ rest) = '\ufffd' :: decode rest := by
  obtain ⟨b, tail, rfl⟩ := List.exists_cons_of_ne_nil h.ne_nil
  rw [List.cons_append, decode]
  cases hscan : scan b (tail ++ rest) with
  | char c n =>
      obtain ⟨tail', rest', hsplit, hc, -⟩ := encoded_of_scan hscan
      refine absurd ?_ (h.no_char c)
      rw [hc, List.cons_append, hsplit, List.cons_prefix_cons]
      exact ⟨rfl, List.prefix_append tail' rest'⟩
  | bad reason n =>
      have heq : b :: tail ++ rest =
          b :: (tail ++ rest).take (n - 1) ++ (tail ++ rest).drop (n - 1) := by
        rw [List.cons_append, List.cons_append, List.take_append_drop]
      obtain ⟨-, hrest⟩ := h.unique (illFormed_of_scan hscan) heq
      dsimp only [Scan.replaced, Scan.size]
      rw [← hrest]

theorem decoded_decode (bs : List UInt8) : Decoded bs (decode bs) := by
  fun_induction decode bs with
  | case1 => exact .nil
  | case2 b bs s ih =>
      cases hscan : s with
      | char c n =>
          obtain ⟨tail, rest, rfl, hc, rfl⟩ := encoded_of_scan (hscan : scan b bs = .char c n)
          rw [hscan] at ih
          simp only [Scan.size, Nat.add_sub_cancel, List.drop_left] at ih
          simpa [Scan.replaced, Scan.size, hc] using Decoded.char (c := c) ih
      | bad reason n =>
          have hbad := illFormed_of_scan (hscan : scan b bs = .bad reason n)
          rw [hscan] at ih
          have hnoise := Decoded.noise hbad ih
          rwa [List.cons_append, Scan.size, List.take_append_drop] at hnoise

/-- **Decoding follows the rule, and the rule allows no other text.** -/
theorem decode_eq_iff {bs : List UInt8} {cs : List Char} : decode bs = cs ↔ Decoded bs cs := by
  constructor
  · rintro rfl
    exact decoded_decode bs
  · intro h
    induction h with
    | nil => rw [decode]
    | char _ ih => rw [decode_encoded_append, ih]
    | noise hpart _ ih => rw [decode_illFormed_append hpart, ih]

/-- What follows the bytes of a text is decoded as if it stood alone. -/
theorem decode_encode_append (cs : List Char) (bs : List UInt8) :
    decode (encode cs ++ bs) = cs ++ decode bs := by
  induction cs with
  | nil => rfl
  | cons c cs ih => rw [encode_cons, List.append_assoc, decode_encoded_append, ih, List.cons_append]

theorem decode_encode (cs : List Char) : decode (encode cs) = cs := by
  have h := decode_encode_append cs []
  rwa [List.append_nil, decode, List.append_nil] at h

end SketchBuild.Text.Utf8

namespace SketchBuild.Tool.Output

open Text.Utf8 (encode Decoded)

theorem decode_encode_append (s : String) (bytes : List UInt8) :
    decode (encode s.toList ++ bytes) = s ++ decode bytes := by
  rw [decode, Text.Utf8.decode_encode_append, String.ofList_append, String.ofList_toList, decode]

/-- **Noise never damages the text before it.** Any bytes have exactly one text in which a
replacement character stands for each ill-formed part, and that is what they are decoded to. The
bytes of a text are decoded to that text, whatever follows, and what follows is decoded as if it
stood alone; so the output of a program keeps a text that it starts with, also where the error
stream is merged into it. What was decoded is not changed by encoding and decoding it once more. -/
theorem noise_spares_text (s : String) (bytes : List UInt8) :
    (∀ t : String, decode bytes = t ↔ Decoded bytes t.toList) ∧
    decode (encode s.toList ++ bytes) = s ++ decode bytes ∧
    decode (encode s.toList) = s ∧
    decode (encode (decode bytes).toList) = decode bytes ∧
    ∀ (merge : Bool) (code : Int) (errors : List UInt8),
      (ofStreams merge code (encode s.toList ++ bytes) errors).stdout =
        s ++ (ofStreams merge code bytes errors).stdout := by
  have hencode : ∀ s : String, decode (encode s.toList) = s := by
    intro s
    rw [decode, Text.Utf8.decode_encode, String.ofList_toList]
  refine ⟨fun t => ?_, decode_encode_append s bytes, hencode s, hencode _, ?_⟩
  · rw [← Text.Utf8.decode_eq_iff, decode]
    constructor
    · rintro rfl
      rw [String.toList_ofList]
    · intro h
      rw [h, String.ofList_toList]
  · intro merge code errors
    cases merge with
    | true =>
        simp only [ofStreams, if_true]
        rw [List.append_assoc, decode_encode_append]
    | false => exact decode_encode_append s bytes

end SketchBuild.Tool.Output
