import SketchBuild.Proofs.Json.Reading

/-!
# Values, written and read

Reading undoes writing: a canonical value in which all numbers are whole comes back from its own
text, `parse_write`, if it is not nested too deeply for the reader. The statement that carries the
induction, `value_write`, is about a value in front of any text that does not go on a number.
-/

namespace SketchBuild.Json

open Text (Piece Str)

/-! ## Blanks -/

theorem skipSpace_of_head {cs : List Char} (h : ∀ c, cs.head? = some c → isSpace c = false) :
    skipSpace cs = cs := by
  cases cs with
  | nil => rfl
  | cons c cs => rw [skipSpace, List.dropWhile_cons_of_neg (by simp [h c rfl])]

theorem skipSpace_newLine (level : Nat) (cs : List Char) :
    skipSpace (newLine level ++ cs) = skipSpace cs := by
  have hblanks : ∀ n, skipSpace (List.replicate n ' ' ++ cs) = skipSpace cs := by
    intro n
    induction n with
    | zero => rfl
    | succ n ih => exact ih
  exact hblanks (2 * level)

/-! ## Numbers -/

/-- Whether a number that stands in front of a text ends there. -/
def EndsNumber (rest : List Char) : Prop :=
  ∀ c, rest.head? = some c → c.isDigit = false ∧ c ≠ '.' ∧ c ≠ 'e' ∧ c ≠ 'E'

theorem endsNumber_cons {c : Char} (hdigit : c.isDigit = false)
    (hmark : c ≠ '.' ∧ c ≠ 'e' ∧ c ≠ 'E') (cs : List Char) : EndsNumber (c :: cs) := by
  intro d hd
  obtain rfl : c = d := Option.some.inj hd
  exact ⟨hdigit, hmark⟩

theorem endsNumber_newLine (level : Nat) (cs : List Char) : EndsNumber (newLine level ++ cs) :=
  endsNumber_cons (by decide) (by decide) _

theorem fraction_of_endsNumber {rest : List Char} (h : EndsNumber rest) :
    fraction rest = ([], rest) := by
  cases rest with
  | nil => rfl
  | cons c cs =>
      rw [fraction]
      rintro r ⟨⟩
      exact (h '.' rfl).2.1 rfl

theorem exponent?_of_endsNumber {rest : List Char} (h : EndsNumber rest) :
    exponent? rest = none := by
  cases rest with
  | nil => rfl
  | cons c cs =>
      rw [exponent?.eq_def]
      dsimp only
      rw [if_neg]
      rintro (rfl | rfl)
      · exact (h 'e' rfl).2.2.1 rfl
      · exact (h 'E' rfl).2.2.2 rfl

theorem digitRun_append {ds rest : List Char} (hds : ∀ c ∈ ds, c.isDigit = true)
    (hrest : EndsNumber rest) : digitRun (ds ++ rest) = (ds, rest) := by
  have hstop : rest.takeWhile Char.isDigit = [] ∧ rest.dropWhile Char.isDigit = rest := by
    cases rest with
    | nil => exact ⟨rfl, rfl⟩
    | cons c cs =>
        have hc : ¬ c.isDigit = true := by simp [(hrest c rfl).1]
        exact ⟨List.takeWhile_cons_of_neg hc, List.dropWhile_cons_of_neg hc⟩
  rw [digitRun, List.takeWhile_append_of_pos hds, List.dropWhile_append_of_pos hds, hstop.1,
    hstop.2, List.append_nil]

/-- Only zero is written with a zero in front. -/
theorem head?_toDigits_ne_zero {n : Nat} (h : n ≠ 0) : (Nat.toDigits 10 n).head? ≠ some '0' := by
  induction n using Nat.strongRecOn with
  | ind n ih =>
      rcases Nat.lt_or_ge n 10 with hlt | hge
      · have hall : ∀ d < 10, d ≠ 0 → [Nat.digitChar d].head? ≠ some '0' := by decide
        rw [Nat.toDigits_of_lt_base hlt]
        exact hall n hlt h
      · obtain ⟨d, ds, hds⟩ :=
          List.exists_cons_of_ne_nil (Nat.toDigits_ne_nil (b := 10) (n := n / 10))
        have hd := ih (n / 10) (by omega) (by omega)
        rw [hds] at hd
        rw [Nat.toDigits_of_base_le (by decide) hge, hds]
        exact hd

theorem isDigit_of_mem_toDigits_ten {n : Nat} {c : Char} (h : c ∈ Nat.toDigits 10 n) :
    c.isDigit = true :=
  Nat.isDigit_of_mem_toDigits (by decide) (by decide) h

theorem wholePart?_toDigits (n : Nat) {rest : List Char} (h : EndsNumber rest) :
    wholePart? (Nat.toDigits 10 n ++ rest) = some (Nat.toDigits 10 n, rest) := by
  by_cases hn : n = 0
  · rw [hn]
    rfl
  · obtain ⟨d, ds, hds⟩ := List.exists_cons_of_ne_nil (Nat.toDigits_ne_nil (b := 10) (n := n))
    have hzero : d ≠ '0' := by
      rintro rfl
      exact head?_toDigits_ne_zero hn (by rw [hds]; rfl)
    have hrun : digitRun (Nat.toDigits 10 n ++ rest) = (Nat.toDigits 10 n, rest) :=
      digitRun_append (fun c hc => isDigit_of_mem_toDigits_ten hc) h
    rw [wholePart?, hrun, hds]
    · intro r hr
      rw [hds] at hr
      exact hzero (List.cons.inj hr).1

theorem unsignedNumber_toDigits {negative : Bool} {n : Nat} (hn : n < 10 ^ Text.maxDigits)
    {rest : List Char} (h : EndsNumber rest) :
    unsignedNumber negative (Nat.toDigits 10 n ++ rest) =
      some (.ok (.int (if negative then -(n : Int) else n), rest)) := by
  rw [unsignedNumber, wholePart?_toDigits n h]
  dsimp only
  rw [fraction_of_endsNumber h]
  dsimp only
  rw [exponent?_of_endsNumber h]
  dsimp only
  rw [Text.readDigits_toDigits, if_pos hn]
  rfl

theorem toList_toString (n : Int) :
    (toString n).toList = (if n < 0 then ['-'] else []) ++ Nat.toDigits 10 n.natAbs := by
  rw [Int.toString_eq_repr, Int.repr_eq_if]
  split
  · next h =>
      rw [if_neg (by omega), Nat.toList_repr, show n.toNat = n.natAbs by omega]
      rfl
  · next h =>
      rw [if_pos (by omega), String.toList_append, Nat.toList_repr,
        show (-n).toNat = n.natAbs by omega]
      rfl

/-- A text with a digit in one of its first two places starts with no word. -/
theorem find?_constants_eq_none {cs : List Char} {c : Char} (hc : c.isDigit = true)
    (hin : c ∈ cs.take 2) : (constants.find? fun (word, _) => word.isPrefixOf cs) = none := by
  have hwords : ∀ entry ∈ constants,
      2 ≤ entry.1.length ∧ (entry.1.take 2).all (fun d => !d.isDigit) = true := by decide
  rw [List.find?_eq_none]
  intro entry hmem hpre
  obtain ⟨hlen, hdigits⟩ := hwords entry hmem
  obtain ⟨t, rfl⟩ := List.isPrefixOf_iff_prefix.mp hpre
  rw [List.take_append_of_le_length hlen] at hin
  have hc' := List.all_eq_true.mp hdigits c hin
  rw [hc] at hc'
  cases hc'

theorem scalar_toString {n : Int} (hn : n.natAbs < 10 ^ Text.maxDigits) {rest : List Char}
    (h : EndsNumber rest) (depth : Nat) :
    scalar depth ((toString n).toList ++ rest) = .ok (.int n, rest) := by
  obtain ⟨d, ds, hds⟩ :=
    List.exists_cons_of_ne_nil (Nat.toDigits_ne_nil (b := 10) (n := n.natAbs))
  have hd : d.isDigit = true := isDigit_of_mem_toDigits_ten (hds ▸ List.mem_cons_self)
  have hminus : d ≠ '-' := by
    rintro rfl
    cases hd
  have hnumber : ∀ negative, unsignedNumber negative (d :: (ds ++ rest)) =
      some (.ok (.int (if negative then -(n.natAbs : Int) else n.natAbs), rest)) := by
    intro negative
    rw [← List.cons_append, ← hds, unsignedNumber_toDigits hn h]
  rw [toList_toString, hds]
  rcases Int.lt_or_le n 0 with hneg | hpos
  · have hvalue : -(n.natAbs : Int) = n := by omega
    rw [if_pos hneg, List.singleton_append, List.cons_append, List.cons_append, scalar,
      find?_constants_eq_none hd (List.mem_cons_of_mem '-' List.mem_cons_self)]
    dsimp only
    rw [hnumber, if_pos rfl, hvalue, Option.getD_some]
  · have hvalue : (n.natAbs : Int) = n := by omega
    rw [if_neg (Int.not_lt.mpr hpos), List.nil_append, List.cons_append, scalar,
      find?_constants_eq_none hd List.mem_cons_self]
    · dsimp only
      rw [hnumber, if_neg (by decide), hvalue, Option.getD_some]
    · intro r hr
      exact hminus (List.cons.inj hr).1

/-! ## Strings -/

theorem writeString_eq (s : Str) :
    writeString s = '"' :: (s.pieces.flatMap writePiece ++ ['"']) := by
  cases s with
  | torn ps => rfl
  | text s =>
      rw [writeString, Str.pieces, List.flatMap_map]
      rfl

theorem stringBody_writeString {s : Str} (h : s.isCanonical = true) (start : Nat)
    (rest : List Char) :
    stringBody start (s.pieces.flatMap writePiece ++ '"' :: rest) = .ok (s.pieces, rest) :=
  stringBody_write (Str.parted_pieces h) rest

/-! ## Values -/

/-- A whole number starts with a minus sign or a digit. -/
theorem toString_head (n : Int) :
    ∃ c cs, (toString n).toList = c :: cs ∧
      ∀ d : Char, d ≠ '-' → d.isDigit = false → c ≠ d := by
  obtain ⟨d, ds, hds⟩ :=
    List.exists_cons_of_ne_nil (Nat.toDigits_ne_nil (b := 10) (n := n.natAbs))
  have hd : d.isDigit = true := isDigit_of_mem_toDigits_ten (hds ▸ List.mem_cons_self)
  rw [toList_toString, hds]
  split
  · exact ⟨'-', d :: ds, rfl, fun e he _ => he.symm⟩
  · refine ⟨d, ds, rfl, fun e _ he => ?_⟩
    rintro rfl
    rw [hd] at he
    cases he

/-- How a value starts: with no blank, and with no closing bracket. -/
theorem write_head {v : Json} (h : v.isFloat = false) (level : Nat) :
    ∃ c cs, write level v = c :: cs ∧ isSpace c = false ∧ c ≠ ']' := by
  cases v with
  | null => exact ⟨_, _, rfl, by decide⟩
  | bool b => cases b <;> exact ⟨_, _, rfl, by decide⟩
  | float x => cases h
  | str s => exact ⟨_, _, writeString_eq s, by decide⟩
  | arr items => cases items <;> exact ⟨_, _, rfl, by decide⟩
  | obj members => cases members <;> exact ⟨_, _, rfl, by decide⟩
  | int n =>
      obtain ⟨c, cs, hcs, hne⟩ := toString_head n
      refine ⟨c, cs, hcs, ?_, hne ']' (by decide) rfl⟩
      simp [isSpace, hne ' ' (by decide) rfl, hne '\t' (by decide) rfl,
        hne '\n' (by decide) rfl, hne '\r' (by decide) rfl]

/-- Blanks in front of a value are skipped up to the value. -/
theorem skipSpace_write {v : Json} (h : v.isFloat = false) (level : Nat) (cs : List Char) :
    skipSpace (write level v ++ cs) = write level v ++ cs := by
  obtain ⟨c, ds, hds, hspace, -⟩ := write_head h level
  rw [hds]
  refine skipSpace_of_head fun d hd => ?_
  obtain rfl : c = d := Option.some.inj hd
  exact hspace

/-- Whether a value comes back from what is written for it, whatever follows, where `depth` levels
of nesting are allowed and there are enough steps. -/
def ReadsBack (depth : Nat) (v : Json) : Prop :=
  v.isFloat = false ∧
    ∀ {fuel level : Nat} {rest : List Char}, 2 * (write level v).length ≤ fuel → EndsNumber rest →
      value depth fuel (write level v ++ rest) = .ok (v, rest)

theorem ReadsBack.intro {depth : Nat} {v : Json} (hfloat : v.isFloat = false)
    (h : ∀ {fuel level : Nat} {rest : List Char}, 2 * (write level v).length ≤ fuel + 1 →
      EndsNumber rest → value depth (fuel + 1) (write level v ++ rest) = .ok (v, rest)) :
    ReadsBack depth v := by
  refine ⟨hfloat, fun {fuel level rest} hfuel hrest => ?_⟩
  cases fuel with
  | zero =>
      obtain ⟨c, cs, hcs, -⟩ := write_head hfloat level
      rw [hcs, List.length_cons] at hfuel
      omega
  | succ fuel => exact h hfuel hrest

theorem items_write {depth : Nat} {v : Json} {vs : List Json}
    (h : ∀ u ∈ v :: vs, ReadsBack depth u) {fuel level : Nat}
    (hfuel : 2 * ((write level v).length + (writeItems level vs).length) < fuel)
    (outer : Nat) (rest : List Char) :
    items depth fuel (write level v ++ (writeItems level vs ++ (newLine outer ++ ']' :: rest))) =
      .ok (v :: vs, rest) := by
  induction vs generalizing v fuel with
  | nil =>
      obtain ⟨fuel, rfl⟩ := Nat.exists_eq_add_one_of_ne_zero (Nat.ne_zero_of_lt hfuel)
      obtain ⟨hv, -⟩ := List.forall_mem_cons.mp h
      rw [writeItems, List.nil_append]
      refine items_eq_ok_iff.mpr ⟨v, newLine outer ++ ']' :: rest, ?_, .inl ⟨?_, rfl⟩⟩
      · exact hv.2 (by omega) (endsNumber_newLine outer _)
      · rw [skipSpace_newLine]
        rfl
  | cons u us ih =>
      obtain ⟨fuel, rfl⟩ := Nat.exists_eq_add_one_of_ne_zero (Nat.ne_zero_of_lt hfuel)
      obtain ⟨hv, hus⟩ := List.forall_mem_cons.mp h
      simp only [writeItems, List.cons_append, List.append_assoc, List.length_cons,
        List.length_append] at hfuel ⊢
      refine items_eq_ok_iff.mpr ⟨v, _, hv.2 (by omega) (endsNumber_cons (by decide) (by decide) _),
        .inr ⟨_, u :: us, rfl, ?_, rfl⟩⟩
      rw [skipSpace_newLine, skipSpace_write (hus u List.mem_cons_self).1]
      exact ih hus (by omega)

theorem setMember_of_notMem {name : Str} {ms : List (Str × Json)} (h : name ∉ ms.map (·.1))
    (v : Json) : setMember name v ms = ms ++ [(name, v)] := by
  induction ms with
  | nil => rfl
  | cons m ms ih =>
      obtain ⟨n, u⟩ := m
      rw [List.map_cons, List.mem_cons, not_or] at h
      rw [setMember, if_neg (Ne.symm h.1), ih h.2, List.cons_append]

theorem notMem_of_nodup {name : Str} {v : Json} {seen ms : List (Str × Json)}
    (h : ((seen ++ (name, v) :: ms).map (·.1)).Nodup) : name ∉ seen.map (·.1) := by
  rw [List.map_append, List.nodup_append] at h
  exact fun hmem => h.2.2 name hmem name List.mem_cons_self rfl

theorem skipSpace_writeString (s : Str) (cs : List Char) :
    skipSpace (writeString s ++ cs) = writeString s ++ cs := by
  rw [writeString_eq]
  rfl

/-- The first of the members that are left is read, and is put after those that were seen. -/
theorem members_first {depth : Nat} {name : Str} {v : Json} (hname : name.isCanonical = true)
    (hv : ReadsBack depth v) {seen : List (Str × Json)} (hseen : name ∉ seen.map (·.1))
    {fuel level : Nat} (hfuel : 2 * (write level v).length ≤ fuel) {ms : List (Str × Json)}
    {cs after : List Char} (hcs : EndsNumber cs)
    (hend : skipSpace cs = '}' :: after ∧ ms = seen ++ [(name, v)] ∨
      ∃ r, skipSpace cs = ',' :: r ∧
        members depth fuel (seen ++ [(name, v)]) (skipSpace r) = .ok (ms, after)) :
    members depth (fuel + 1) seen (writeString name ++ ':' :: ' ' :: (write level v ++ cs)) =
      .ok (ms, after) := by
  rw [writeString_eq, List.cons_append, List.append_assoc]
  refine members_eq_ok_iff.mpr ⟨_, name.pieces, _, ' ' :: (write level v ++ cs), v, cs, rfl,
    stringBody_writeString hname _ _, rfl, ?_, ?_⟩
  · rw [show skipSpace (' ' :: (write level v ++ cs)) = skipSpace (write level v ++ cs) from rfl,
      skipSpace_write hv.1]
    exact hv.2 hfuel hcs
  · rw [Str.ofPieces_pieces, setMember_of_notMem hseen]
    exact hend

theorem members_write {depth : Nat} {name : Str} {v : Json} {ms seen : List (Str × Json)}
    (h : ∀ m ∈ (name, v) :: ms, m.1.isCanonical = true ∧ ReadsBack depth m.2)
    (hnodup : ((seen ++ (name, v) :: ms).map (·.1)).Nodup) {fuel level : Nat}
    (hfuel : 2 * ((write level v).length + (writeMembers level ms).length) < fuel)
    (outer : Nat) (rest : List Char) :
    members depth fuel seen (writeString name ++ ':' :: ' ' :: (write level v ++
      (writeMembers level ms ++ (newLine outer ++ '}' :: rest)))) =
      .ok (seen ++ (name, v) :: ms, rest) := by
  induction ms generalizing name v seen fuel with
  | nil =>
      obtain ⟨fuel, rfl⟩ := Nat.exists_eq_add_one_of_ne_zero (Nat.ne_zero_of_lt hfuel)
      obtain ⟨hname, hv⟩ := h (name, v) List.mem_cons_self
      rw [writeMembers, List.nil_append]
      refine members_first hname hv (notMem_of_nodup hnodup) (Nat.le_of_lt_succ hfuel)
        (endsNumber_newLine outer _) (.inl ⟨?_, rfl⟩)
      rw [skipSpace_newLine]
      rfl
  | cons m ms ih =>
      obtain ⟨n, u⟩ := m
      obtain ⟨fuel, rfl⟩ := Nat.exists_eq_add_one_of_ne_zero (Nat.ne_zero_of_lt hfuel)
      obtain ⟨⟨hname, hv⟩, hms⟩ := List.forall_mem_cons.mp h
      dsimp only at hname hv
      simp only [writeMembers, List.cons_append, List.append_assoc, List.length_cons,
        List.length_append] at hfuel ⊢
      refine members_first hname hv (notMem_of_nodup hnodup) (by omega)
        (endsNumber_cons (by decide) (by decide) _) (.inr ⟨_, rfl, ?_⟩)
      have hassoc : seen ++ (name, v) :: (n, u) :: ms = seen ++ [(name, v)] ++ (n, u) :: ms :=
        List.append_cons seen (name, v) ((n, u) :: ms)
      rw [hassoc] at hnodup ⊢
      rw [skipSpace_newLine, skipSpace_writeString]
      exact ih hms hnodup (by omega)

/-- A canonical value without fractions comes back where it may be nested as deeply as it is. -/
theorem readsBack {v : Json} (hc : Canonical v) (hf : FloatFree v) {depth : Nat}
    (hd : v.depth ≤ depth) : ReadsBack depth v := by
  induction v using Json.ind generalizing depth with
  | null => exact .intro rfl fun _ _ => by cases depth <;> rfl
  | bool b => exact .intro rfl fun _ _ => by cases b <;> cases depth <;> rfl
  | float x => cases hf
  | int n =>
      refine .intro rfl fun _ hrest => value_eq_ok_iff.mpr (.inr (.inr (.inr ⟨fun r => ?_, ?_⟩)))
      · obtain ⟨c, cs, hcs, hne⟩ := toString_head n
        rw [write, hcs]
        exact ⟨fun heq => hne '"' (by decide) rfl (List.cons.inj heq).1,
          fun heq => hne '[' (by decide) rfl (List.cons.inj heq).1,
          fun heq => hne '{' (by decide) rfl (List.cons.inj heq).1⟩
      · exact scalar_toString (canonical_int.mp hc) hrest depth
  | str s =>
      refine .intro rfl fun _ _ => ?_
      rw [write, writeString_eq, List.cons_append, List.append_assoc]
      refine value_eq_ok_iff.mpr (.inl ⟨_, s.pieces, rfl, stringBody_writeString hc _ _, ?_⟩)
      rw [Str.ofPieces_pieces]
  | arr items ih =>
      rw [Json.depth] at hd
      obtain ⟨depth, rfl⟩ := Nat.exists_eq_add_one_of_ne_zero (Nat.ne_zero_of_lt hd)
      have hitems : ∀ v ∈ items, ReadsBack depth v := fun v hv =>
        ih v hv ((all_arr.mp hc).2 v hv) ((all_arr.mp hf).2 v hv)
          (depthOfItems_le_iff.mp (Nat.le_of_succ_le_succ hd) v hv)
      refine .intro rfl fun {fuel level rest} hfuel _ => ?_
      cases items with
      | nil => rfl
      | cons v vs =>
          have hfloat := (hitems v List.mem_cons_self).1
          simp only [write, List.cons_append, List.append_assoc, List.nil_append, List.length_cons,
            List.length_append] at hfuel ⊢
          refine value_eq_ok_iff.mpr (.inr (.inl ⟨_, depth, rfl, rfl, .inr ⟨fun r hr => ?_,
            v :: vs, ?_, rfl⟩⟩))
          · rw [skipSpace_newLine, skipSpace_write hfloat] at hr
            obtain ⟨c, cs, hcs, -, hne⟩ := write_head hfloat (level + 1)
            rw [hcs] at hr
            exact hne (List.cons.inj hr).1
          · rw [skipSpace_newLine, skipSpace_write hfloat]
            exact items_write hitems (by omega) level rest
  | obj members ih =>
      rw [Json.depth] at hd
      obtain ⟨depth, rfl⟩ := Nat.exists_eq_add_one_of_ne_zero (Nat.ne_zero_of_lt hd)
      obtain ⟨hms, hnodup⟩ := canonical_obj.mp hc
      have hmembers : ∀ m ∈ members, m.1.isCanonical = true ∧ ReadsBack depth m.2 := fun m hm =>
        ⟨(hms m hm).1, ih m hm (hms m hm).2 ((all_obj.mp hf).2 m hm)
          (depthOfMembers_le_iff.mp (Nat.le_of_succ_le_succ hd) m hm)⟩
      refine .intro rfl fun {fuel level rest} hfuel _ => ?_
      cases members with
      | nil => rfl
      | cons m ms =>
          obtain ⟨name, v⟩ := m
          simp only [write, List.cons_append, List.append_assoc, List.nil_append, List.length_cons,
            List.length_append] at hfuel ⊢
          refine value_eq_ok_iff.mpr (.inr (.inr (.inl ⟨_, depth, rfl, rfl, .inr ⟨fun r hr => ?_,
            (name, v) :: ms, ?_, rfl⟩⟩)))
          · rw [skipSpace_newLine, skipSpace_writeString, writeString_eq] at hr
            exact absurd (List.cons.inj hr).1 (by decide)
          · rw [skipSpace_newLine, skipSpace_writeString]
            exact members_write hmembers hnodup (by omega) level rest

/-! ## Characters -/

/-- The characters that a text is written in: line feeds, and what ASCII has between the space and
the tilde. -/
def IsPrinted (c : Char) : Prop := c = '\n' ∨ 0x20 ≤ c.toNat ∧ c.toNat < 0x7F

instance : DecidablePred IsPrinted := fun _ => inferInstanceAs (Decidable (_ ∨ _))

theorem isPrinted_of_all {cs : List Char} (h : (cs.all fun c => decide (IsPrinted c)) = true) :
    ∀ c ∈ cs, IsPrinted c :=
  fun c hc => of_decide_eq_true (List.all_eq_true.mp h c hc)

theorem isPrinted_of_mem_hex {n : Nat} (hn : n < 0x10000) : ∀ c ∈ Text.hex 4 n, IsPrinted c := by
  have hdigit : ∀ d < 16, IsPrinted (Nat.digitChar d) := by decide
  rw [hex_four hn]
  simp only [List.forall_mem_cons]
  exact ⟨hdigit _ (by omega), hdigit _ (by omega), hdigit _ (by omega), hdigit _ (by omega),
    List.forall_mem_nil _⟩

theorem isPrinted_of_shortEscape? {e c : Char} (h : shortEscape? e = some c) : IsPrinted e := by
  unfold shortEscape? at h
  split at h
  case h_9 => cases h
  all_goals decide

theorem isPrinted_of_mem_writePiece (p : Piece) : ∀ c ∈ writePiece p, IsPrinted c := by
  have hunit : ∀ {n : Nat}, n < 0x10000 → ∀ c ∈ '\\' :: 'u' :: Text.hex 4 n, IsPrinted c :=
    fun hn => List.forall_mem_cons.mpr ⟨by decide,
      List.forall_mem_cons.mpr ⟨by decide, isPrinted_of_mem_hex hn⟩⟩
  cases p with
  | half h => exact hunit (Half.code_lt h)
  | char c =>
      have hvalid : c.toNat < 0xD800 ∨ 0xDFFF < c.toNat ∧ c.toNat < 0x110000 := c.valid
      rw [writePiece]
      obtain ⟨e, he, hw⟩ | ⟨-, -, hc, hw⟩ | ⟨hc, hw⟩ | ⟨hc, hw⟩ := writeChar_cases c
      · rw [hw]
        exact List.forall_mem_cons.mpr ⟨by decide,
          List.forall_mem_singleton.mpr (isPrinted_of_shortEscape? he)⟩
      · rw [hw]
        exact List.forall_mem_singleton.mpr (.inr hc)
      · rw [hw]
        exact hunit hc
      · rw [hw, ← List.cons_append, ← List.cons_append, List.forall_mem_append]
        exact ⟨hunit (by omega), hunit (by omega)⟩

theorem isPrinted_of_mem_writeString (s : Str) : ∀ c ∈ writeString s, IsPrinted c := by
  rw [writeString_eq]
  intro c hc
  rcases List.mem_cons.mp hc with rfl | hc
  · decide
  · rcases List.mem_append.mp hc with hc | hc
    · obtain ⟨p, -, hp⟩ := List.mem_flatMap.mp hc
      exact isPrinted_of_mem_writePiece p c hp
    · obtain rfl := List.mem_singleton.mp hc
      decide

theorem isPrinted_of_mem_newLine (level : Nat) : ∀ c ∈ newLine level, IsPrinted c := by
  refine List.forall_mem_cons.mpr ⟨by decide, fun c hc => ?_⟩
  obtain rfl := List.eq_of_mem_replicate hc
  decide

theorem isPrinted_of_mem_toString (n : Int) : ∀ c ∈ (toString n).toList, IsPrinted c := by
  rw [toList_toString, List.forall_mem_append]
  constructor
  · split <;> exact isPrinted_of_all rfl
  · intro c hc
    have hdigit := isDigit_of_mem_toDigits_ten hc
    rw [Char.isDigit, Bool.and_eq_true, decide_eq_true_eq, decide_eq_true_eq] at hdigit
    exact .inr ⟨Nat.le_trans (by decide) hdigit.1, Nat.lt_of_le_of_lt hdigit.2 (by decide)⟩

theorem isPrinted_of_mem_writeItems {level : Nat} {vs : List Json}
    (h : ∀ v ∈ vs, ∀ c ∈ write level v, IsPrinted c) : ∀ c ∈ writeItems level vs, IsPrinted c := by
  induction vs with
  | nil => exact List.forall_mem_nil _
  | cons v vs ih =>
      obtain ⟨hv, hvs⟩ := List.forall_mem_cons.mp h
      simp only [writeItems, List.cons_append, List.append_assoc, List.forall_mem_cons,
        List.forall_mem_append]
      exact ⟨by decide, isPrinted_of_mem_newLine level, hv, ih hvs⟩

theorem isPrinted_of_mem_writeMembers {level : Nat} {ms : List (Str × Json)}
    (h : ∀ m ∈ ms, ∀ c ∈ write level m.2, IsPrinted c) :
    ∀ c ∈ writeMembers level ms, IsPrinted c := by
  induction ms with
  | nil => exact List.forall_mem_nil _
  | cons m ms ih =>
      obtain ⟨name, v⟩ := m
      obtain ⟨hv, hms⟩ := List.forall_mem_cons.mp h
      simp only [writeMembers, List.cons_append, List.append_assoc, List.forall_mem_cons,
        List.forall_mem_append]
      exact ⟨by decide, isPrinted_of_mem_newLine level, isPrinted_of_mem_writeString name,
        by decide, by decide, hv, ih hms⟩

theorem isPrinted_of_mem_write {v : Json} (hf : FloatFree v) (level : Nat) :
    ∀ c ∈ write level v, IsPrinted c := by
  induction v using Json.ind generalizing level with
  | null => exact isPrinted_of_all rfl
  | bool b => cases b <;> exact isPrinted_of_all rfl
  | float x => cases hf
  | int n => exact isPrinted_of_mem_toString n
  | str s => exact isPrinted_of_mem_writeString s
  | arr items ih =>
      have hitems : ∀ v ∈ items, ∀ c ∈ write (level + 1) v, IsPrinted c :=
        fun v hv => ih v hv ((all_arr.mp hf).2 v hv) (level + 1)
      cases items with
      | nil => exact isPrinted_of_all rfl
      | cons v vs =>
          obtain ⟨hv, hvs⟩ := List.forall_mem_cons.mp hitems
          simp only [write, List.cons_append, List.append_assoc, List.forall_mem_cons,
            List.forall_mem_append]
          exact ⟨by decide, isPrinted_of_mem_newLine _, hv, isPrinted_of_mem_writeItems hvs,
            isPrinted_of_mem_newLine _, by decide, List.forall_mem_nil _⟩
  | obj members ih =>
      have hmembers : ∀ m ∈ members, ∀ c ∈ write (level + 1) m.2, IsPrinted c :=
        fun m hm => ih m hm ((all_obj.mp hf).2 m hm) (level + 1)
      cases members with
      | nil => exact isPrinted_of_all rfl
      | cons m ms =>
          obtain ⟨name, v⟩ := m
          obtain ⟨hv, hms⟩ := List.forall_mem_cons.mp hmembers
          simp only [write, List.cons_append, List.append_assoc, List.forall_mem_cons,
            List.forall_mem_append]
          exact ⟨by decide, isPrinted_of_mem_newLine _, isPrinted_of_mem_writeString name,
            by decide, by decide, hv, isPrinted_of_mem_writeMembers hms,
            isPrinted_of_mem_newLine _, by decide, List.forall_mem_nil _⟩

/-! ## Whole texts -/

/-- Reading undoes writing. -/
theorem parse_write {depth : Nat} {v : Json} (hc : Canonical v) (hf : FloatFree v)
    (hd : v.depth ≤ depth) : parse depth (write 0 v ++ ['\n']) = .ok v := by
  have hback := readsBack hc hf hd
  obtain ⟨c, cs, hcs, -⟩ := write_head hback.1 0
  refine parse_eq_ok_iff.mpr ⟨fun rest hrest => ?_, ['\n'], ?_, rfl⟩
  · have hmark : '\ufeff' ∈ write 0 v := by
      rw [hcs] at hrest ⊢
      exact (List.cons.inj hrest).1 ▸ List.mem_cons_self
    exact absurd (isPrinted_of_mem_write hf 0 _ hmark) (by decide)
  · rw [skipSpace_write hback.1]
    exact hback.2 (by simp only [List.length_append]; omega)
      (endsNumber_cons (by decide) (by decide) _)

end SketchBuild.Json
