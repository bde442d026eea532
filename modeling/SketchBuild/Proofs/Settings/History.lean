import SketchBuild.Proofs.Numeral
import SketchBuild.Proofs.Settings.Store

/-!
# Settings changed by words, one after another

A word is read by the kind of the value that it replaces, and what is read is again of that kind. So
along a history of calls, refused ones included, the kind of each setting is the one that it had in
the beginning (`kindOf_after`). From the defaults on this is the declared kind: a call then means
the same whatever came before it (`Spoken.set_eq`), and calls obey the laws of assignments to
distinct variables. A file, however, may start a setting with a value of any kind.
-/

namespace SketchBuild

/-- A number is read back from its text if it is not too long. -/
theorem Text.readInt?_toString {n : Int} (h : n.natAbs < 10 ^ maxDigits) :
    readInt? (toString n).toList = some n := by
  have hnumber : IsNumber (Nat.toDigits 10 n.natAbs) :=
    ⟨Nat.toDigits_ne_nil, fun c hc => isDigit_of_mem_toDigits hc⟩
  have hlen := length_toDigits_le_maxDigits.mpr h
  clear h
  have htext := Json.toList_toString n
  have hsign : (if n < 0 then ['-'] else []) ∈ [[], ['+'], ['-']] := by
    split <;> decide
  have htrim : trim (toString n).toList = (toString n).toList := by
    have hblank : ∀ c ∈ (toString n).toList, isBlank c = false := by
      rw [htext, List.forall_mem_append]
      constructor
      · split
        · exact List.forall_mem_singleton.mpr (by decide)
        · exact List.forall_mem_nil _
      · exact fun c hc => isBlank_of_isDigit (hnumber.2 c hc)
    exact trim_eq_self (fun c hc => hblank c (List.mem_of_head? hc))
      fun c hc => hblank c (List.mem_of_getLast? hc)
  rw [← htrim]
  refine readInt?_trim_eq_some_iff.mpr
    ⟨if n < 0 then ['-'] else [], [Nat.toDigits 10 n.natAbs], ?_, ?_, ?_⟩
  · rw [htrim]
    exact isNumeral_iff.mpr ⟨hsign, _, htext, hnumber.isNumeral⟩
  · rwa [List.flatten_singleton]
  · rw [List.flatten_singleton, digitsValue_toDigits, signed]
    split
    · rw [if_pos rfl]
      omega
    · rw [if_neg (List.cons_ne_nil _ _).symm]
      omega

namespace Settings

open Text.Utf8 (encode)

/-! ## Kinds -/

/-- The kinds of settings, by how a word is read as a value. -/
inductive Kind
  | switch
  | number
  | text
deriving DecidableEq, Repr

/-- The kind by which the word that replaces a value is read. -/
def kindOf : Json → Kind
  | .bool _ => .switch
  | .int _ => .number
  | _ => .text

/-- The kind that a setting is declared with. -/
def Key.kind : Key → Kind
  | .coreBinary | .arduinoCli | .defaultBoard => .text
  | .defaultBaud => .number
  | .color | .verbose | .autoDetect => .switch

namespace Kind

/-- The values of a kind. -/
inductive Has : Kind → Json → Prop
  | switch (b : Bool) : Has .switch (.bool b)
  | number (n : Int) : Has .number (.int n)
  | text (s : Text.Str) : Has .text (.str s)

theorem Has.kindOf_eq {kind : Kind} {v : Json} (h : kind.Has v) : kindOf v = kind := by
  cases h <;> rfl

/-- Reads a word as a value of a kind; `key` is for the message. -/
def read (kind : Kind) (key word : String) : Except Error Json :=
  match kind with
  | .switch =>
    match switch? word with
    | some b => .ok (.bool b)
    | none => .error (.notSwitch word key)
  | .number =>
    match Text.readInt? word.toList with
    | some n => .ok (.int n)
    | none => .error (.notNumber word key)
  | .text => .ok (.text word)

theorem read_eq_ok_iff {kind : Kind} {key word : String} {v : Json} :
    kind.read key word = .ok v ↔
      (kind = .switch ∧ ∃ b, switch? word = some b ∧ v = .bool b) ∨
      (kind = .number ∧ ∃ n, Text.readInt? word.toList = some n ∧ v = .int n) ∨
      (kind = .text ∧ v = .text word) := by
  unfold read
  cases kind with
  | switch => cases switch? word <;> simp [eq_comm]
  | number => cases Text.readInt? word.toList <;> simp [eq_comm]
  | text => simp [eq_comm]

variable {kind kind' : Kind} {key word : String} {v : Json}

theorem has_of_read (h : kind.read key word = .ok v) : kind.Has v := by
  rcases read_eq_ok_iff.mp h with ⟨rfl, b, -, rfl⟩ | ⟨rfl, n, -, rfl⟩ | ⟨rfl, rfl⟩
  · exact .switch b
  · exact .number n
  · exact .text _

/-- What is read is of no kind but the one that it was read by. -/
theorem has_iff_of_read (h : kind.read key word = .ok v) : kind'.Has v ↔ kind = kind' := by
  have hhas := has_of_read h
  constructor
  · intro h'
    exact hhas.kindOf_eq.symm.trans h'.kindOf_eq
  · rintro rfl
    exact hhas

/-- The word for the key does not matter to what is read. -/
theorem read_of_read (h : kind.read key word = .ok v) (key' : String) :
    kind.read key' word = .ok v :=
  read_eq_ok_iff.mpr (read_eq_ok_iff.mp h)

/-- The text of a value that was read is read as that value. -/
theorem read_display (h : kind.read key word = .ok v) (key' : String) :
    kind.read key' v.display = .ok v := by
  rcases read_eq_ok_iff.mp h with ⟨rfl, b, -, rfl⟩ | ⟨rfl, n, hn, rfl⟩ | ⟨rfl, rfl⟩
  · refine read_eq_ok_iff.mpr (.inl ⟨rfl, b, ?_, rfl⟩)
    cases b <;> decide +kernel
  · refine read_eq_ok_iff.mpr (.inr (.inl ⟨rfl, n, ?_, rfl⟩))
    exact Text.readInt?_toString (natAbs_lt_of_readInt? hn)
  · rfl

end Kind

theorem convert_eq_read (current : Json) (key word : String) :
    convert current key word = (kindOf current).read key word := by
  unfold convert Kind.read
  cases current with
  | bool => cases switch? word <;> simp [kindOf]
  | int => cases Text.readInt? word.toList <;> simp [kindOf]
  | null | float | str | arr | obj => rfl

theorem set_of_read {s : Settings} {k : Key} {key word : String} {v : Json}
    (hk : Key.ofWord? key = some k) (h : (kindOf (s.get k)).read key word = .ok v) :
    s.set key word = .ok (s.put k v) :=
  set_eq_ok_iff.mpr ⟨k, v, hk, (convert_eq_read _ _ _).trans h, rfl⟩

theorem kindOf_default (k : Key) : kindOf (({} : Settings).get k) = k.kind := by
  cases k <;> rfl

/-! ## Histories -/

/-- A call that changes a setting: the words for the key and for the value. -/
structure Call where
  key : String
  word : String

/-- What comes of a call: the error if it is refused, and the settings afterwards. -/
def attempt (s : Settings) (c : Call) : Option Error × Settings :=
  match s.set c.key c.word with
  | .ok s' => (none, s')
  | .error e => (some e, s)

/-- The settings after some calls. -/
def after (s : Settings) (calls : List Call) : Settings :=
  calls.foldl (fun s c => (s.attempt c).2) s

/-- The errors of some calls, in order. -/
def outcomes : Settings → List Call → List (Option Error)
  | _, [] => []
  | s, c :: calls => (s.attempt c).1 :: outcomes (s.attempt c).2 calls

theorem after_cons (s : Settings) (c : Call) (calls : List Call) :
    s.after (c :: calls) = (s.attempt c).2.after calls := by
  rw [after, after, List.foldl_cons]

theorem after_append (s : Settings) (calls calls' : List Call) :
    s.after (calls ++ calls') = (s.after calls).after calls' :=
  List.foldl_append

theorem attempt_of_ok {s s' : Settings} {c : Call} (h : s.set c.key c.word = .ok s') :
    s.attempt c = (none, s') := by
  unfold attempt
  rw [h]

theorem attempt_of_error {s : Settings} {c : Call} {e : Error} (h : s.set c.key c.word = .error e) :
    s.attempt c = (some e, s) := by
  unfold attempt
  rw [h]

/-- A call keeps the kind of every setting. -/
theorem kindOf_attempt (s : Settings) (c : Call) (k : Key) :
    kindOf ((s.attempt c).2.get k) = kindOf (s.get k) := by
  cases hset : s.set c.key c.word with
  | error e => rw [attempt_of_error hset]
  | ok s' =>
      obtain ⟨k', v, -, hv, rfl⟩ := set_eq_ok_iff.mp hset
      rw [convert_eq_read] at hv
      rw [attempt_of_ok hset, get_put]
      split
      · next heq => rw [heq, (Kind.has_of_read hv).kindOf_eq]
      · rfl

/-- So does every history. -/
theorem kindOf_after (s : Settings) (calls : List Call) (k : Key) :
    kindOf ((s.after calls).get k) = kindOf (s.get k) := by
  induction calls generalizing s with
  | nil => rfl
  | cons c calls ih => rw [after_cons, ih, kindOf_attempt]

/-! ## Settings from a file -/

section Load

variable {given : Option Path} {w w' : World} {loaded s : Settings}

/-- The settings file is there and gives a setting this value. -/
def Given (given : Option Path) (w : World) (k : Key) (v : Json) : Prop :=
  ∃ p cs x ms, path? given w.env = some p ∧ w.disk.stat p = .ok (.file (encode cs) x) ∧
    Json.parse (w.host.room.reads .settings) (Text.unifyBreaks cs) = .ok (.obj ms) ∧
    Json.member? k.name ms = some v

/-- A setting that was loaded has the value that the file gives, or else its default. -/
theorem get_of_load (h : load given w = .ok loaded w') (k : Key) :
    (∀ v, ¬ Given given w k v) ∧ loaded.get k = ({} : Settings).get k ∨
      ∀ v, Given given w k v ↔ v = loaded.get k := by
  obtain ⟨-, p, hp, hfile⟩ := load_eq_ok_iff.mp h
  obtain ⟨hmissing, rfl⟩ | ⟨cs, x, ms, hstat, hparse, rfl⟩ := hfile
  · refine .inl ⟨?_, rfl⟩
    rintro v ⟨p', cs, x, ms, hp', hstat, -⟩
    cases hp.symm.trans hp'
    rw [Disk.exists?, Disk.ask, hstat] at hmissing
    cases hmissing
  · -- the file determines its members
    have hgiven : ∀ v, Given given w k v ↔ Json.member? k.name ms = some v := by
      intro v
      constructor
      · rintro ⟨p', cs', x', ms', hp', hstat', hparse', hv⟩
        cases hp.symm.trans hp'
        obtain ⟨hcs, -⟩ := Entry.file.inj (Except.ok.inj (hstat.symm.trans hstat'))
        cases Text.Utf8.encode_inj.mp hcs
        cases hparse.symm.trans hparse'
        exact hv
      · intro hv
        exact ⟨p, cs, x, ms, hp, hstat, hparse, hv⟩
    simp only [hgiven, get_ofMembers]
    cases Json.member? k.name ms with
    | none => exact .inl ⟨by simp, rfl⟩
    | some v => exact .inr fun v' => by simp [eq_comm]

/-- What holds of the default holds of the loaded value if it holds of the value in the file. -/
theorem of_load_iff (h : load given w = .ok loaded w') {k : Key} {P : Json → Prop}
    (hdefault : P (({} : Settings).get k)) :
    P (loaded.get k) ↔ ∀ v, Given given w k v → P v := by
  obtain ⟨hnone, hget⟩ | hgiven := get_of_load h k
  · rw [hget]
    exact iff_of_true hdefault fun v hv => absurd hv (hnone v)
  · simp [hgiven]

/-- The words that switch a setting off are no numbers but zero, and not empty as texts. -/
theorem off_words : ∀ word ∈ ["false", "no", "off", "0"], switch? word = some false ∧
    (∀ n ∈ Text.readInt? word.toList, n = 0) ∧ word.isEmpty = false := by
  decide +kernel

theorem truthy_of_read_off {kind : Kind} {key word : String} {v : Json}
    (hword : word ∈ ["false", "no", "off", "0"]) (h : kind.read key word = .ok v) :
    v.truthy = false ↔ kind ≠ .text := by
  obtain ⟨hswitch, hnumber, htext⟩ := off_words word hword
  rcases Kind.read_eq_ok_iff.mp h with ⟨rfl, b, hb, rfl⟩ | ⟨rfl, n, hn, rfl⟩ | ⟨rfl, rfl⟩
  · cases hswitch.symm.trans hb
    decide
  · cases hnumber n hn
    decide
  · simp [Json.truthy, Text.Str.isEmpty, htext]

/-- **When setting a key respects its declared kind.** After any calls on settings that were loaded,
a successful call leaves a value of the declared kind exactly if the file gave that setting no value
that is read by another kind. A switch that was set to a word for "off" counts as false exactly if
the file gave it no value but a switch or a number. -/
theorem set_respects_kind_iff (hload : load given w = .ok loaded w') (calls : List Call)
    {key word : String} {k : Key} (hk : Key.ofWord? key = some k)
    (hset : (loaded.after calls).set key word = .ok s) :
    (k.kind.Has (s.get k) ↔ ∀ v, Given given w k v → kindOf v = k.kind) ∧
    (k.kind = .switch → word ∈ ["false", "no", "off", "0"] →
      ((s.get k).truthy = false ↔ ∀ v, Given given w k v → kindOf v ≠ .text)) := by
  obtain ⟨k', v, hk', hv, rfl⟩ := set_eq_ok_iff.mp hset
  cases hk.symm.trans hk'
  rw [convert_eq_read, kindOf_after] at hv
  rw [get_put, if_pos rfl]
  constructor
  · rw [Kind.has_iff_of_read hv]
    exact of_load_iff hload (P := fun v => kindOf v = k.kind) (kindOf_default k)
  · intro hswitch hword
    rw [truthy_of_read_off hword hv]
    refine of_load_iff hload (P := fun v => kindOf v ≠ .text) ?_
    rw [kindOf_default, hswitch]
    decide

end Load

namespace Sample

/-- The world in which the file of the sample holds these settings, with no more room than they
need. -/
def storing (s : Settings) : World :=
  world (.ofDepths s.toJson.depth s.toJson.depth)
    [(["c"], .directory), (["c", "godotino"], .directory),
      (["c", "godotino", "config.json"], .file (encode s.fileText) false)]

theorem load_storing {s : Settings} (hc : ∀ k, Json.Canonical (s.get k))
    (hf : ∀ k, Json.FloatFree (s.get k)) : load none (storing s) = .ok s (storing s) :=
  load_of_fileText (x := false) (path?_world _ _) rfl hc hf (Nat.le_refl s.toJson.depth)

end Sample

/-- A switch that the file gives as a switch is set as declared, whatever the file gives others. -/
theorem set_respects_kind_sample :
    let w := Sample.storing { defaultBaud := .null, color := .bool true }
    ∃ loaded s, load none w = .ok loaded w ∧
      (loaded.after [⟨"core-binary", "7"⟩, ⟨"color", "maybe"⟩]).set " Color " "off" = .ok s ∧
      Key.color.kind.Has (s.get .color) ∧ (s.get .color).truthy = false ∧
      ∀ v, Given none w .color v → kindOf v = .switch := by
  intro w
  have hload : load none w = .ok { defaultBaud := .null, color := .bool true } w :=
    Sample.load_storing (fun k => by cases k <;> rfl) (fun k => by cases k <;> rfl)
  have hkey : Key.ofWord? " Color " = some .color := by decide +kernel
  have hread : Kind.switch.read " Color " "off" = .ok (.bool false) :=
    Kind.read_eq_ok_iff.mpr (.inl ⟨rfl, false, by decide +kernel, rfl⟩)
  have hset := @set_of_read
    (after { defaultBaud := .null, color := .bool true } [⟨"core-binary", "7"⟩, ⟨"color", "maybe"⟩])
    .color " Color " "off" (.bool false) hkey (by rw [kindOf_after]; exact hread)
  obtain ⟨hkind, hoff⟩ := set_respects_kind_iff hload _ hkey hset
  have hhas : Key.color.kind.Has (.bool false) := .switch false
  exact ⟨_, _, hload, hset, hhas, rfl, hkind.mp hhas⟩

/-- A switch that the file gives as a text stays a text, and counts as true when it is switched off;
a number that the file gives as `null` becomes a text as well. -/
theorem mistyped_file_defeats_set :
    let w := Sample.storing { defaultBaud := .null, color := .text "yes" }
    ∃ loaded s s', load none w = .ok loaded w ∧
      loaded.set "color" "false" = .ok s ∧ ¬ Key.color.kind.Has (s.get .color) ∧
      (s.get .color).truthy = true ∧
      loaded.set "default_baud" "115200" = .ok s' ∧
      ¬ Key.defaultBaud.kind.Has (s'.get .defaultBaud) := by
  intro w
  have hload : load none w = .ok { defaultBaud := .null, color := .text "yes" } w :=
    Sample.load_storing (fun k => by cases k <;> rfl) (fun k => by cases k <;> rfl)
  have hcolor : Key.ofWord? "color" = some .color := by decide +kernel
  have hbaud : Key.ofWord? "default_baud" = some .defaultBaud := by decide +kernel
  refine ⟨_, _, _, hload, set_of_read hcolor rfl, ?_, rfl, set_of_read hbaud rfl, ?_⟩ <;>
    rintro ⟨⟩

/-! ## Settings from the defaults on -/

/-- What a call asks for: a setting, and the value that the word gives it by the declared kind. -/
def Call.change (c : Call) : Except Error (Key × Json) :=
  match Key.ofWord? c.key with
  | none => .error (.unknownKey c.key)
  | some k => (k.kind.read c.key c.word).map (k, ·)

theorem Call.change_eq_ok_iff {c : Call} {k : Key} {v : Json} :
    c.change = .ok (k, v) ↔
      Key.ofWord? c.key = some k ∧ k.kind.read c.key c.word = .ok v := by
  unfold change
  cases Key.ofWord? c.key with
  | none => simp
  | some k' =>
      dsimp only
      cases hread : k'.kind.read c.key c.word with
      | error e =>
          simp only [Except.map, reduceCtorEq, Option.some.injEq, false_iff]
          rintro ⟨rfl, hv⟩
          cases hread.symm.trans hv
      | ok v' =>
          simp only [Except.map, Except.ok.injEq, Prod.mk.injEq, Option.some.injEq]
          refine and_congr_right ?_
          rintro rfl
          rw [hread, Except.ok.injEq]

/-- The value of a setting after a call, given the one before it. -/
def Call.valueFor (c : Call) (k : Key) (v : Json) : Json :=
  match c.change with
  | .ok change => if k = change.1 then change.2 else v
  | .error _ => v

theorem Call.valueFor_of_ne (c : Call) {k k' : Key} (hk : Key.ofWord? c.key = some k)
    (hne : k' ≠ k) (v : Json) : c.valueFor k' v = v := by
  unfold valueFor
  split
  · next change hc =>
      obtain ⟨hk', -⟩ := change_eq_ok_iff.mp hc
      rw [if_neg]
      rintro rfl
      exact hne (Option.some.inj (hk'.symm.trans hk))
  · rfl

theorem Call.valueFor_of_change {c : Call} {k k' : Key} {v : Json} (hc : c.change = .ok (k, v))
    (heq : k' = k) (u : Json) : c.valueFor k' u = v := by
  unfold valueFor
  rw [hc]
  exact if_pos heq

/-- Every setting has a value that some word gives it. -/
def Spoken (s : Settings) : Prop := ∀ k : Key, ∃ word, ∀ key, k.kind.read key word = .ok (s.get k)

theorem spoken_default : Spoken {} := by
  have hswitch : ∀ {word b}, switch? word = some b →
      ∀ key, Kind.switch.read key word = .ok (.bool b) :=
    fun h _ => Kind.read_eq_ok_iff.mpr (.inl ⟨rfl, _, h, rfl⟩)
  have hbaud : Text.readInt? "9600".toList = some 9600 := by decide +kernel
  intro k
  cases k with
  | coreBinary | arduinoCli | defaultBoard => exact ⟨_, fun _ => rfl⟩
  | defaultBaud =>
      exact ⟨"9600", fun _ => Kind.read_eq_ok_iff.mpr (.inr (.inl ⟨rfl, _, hbaud, rfl⟩))⟩
  | color | autoDetect => exact ⟨"true", hswitch (by decide +kernel)⟩
  | verbose => exact ⟨"false", hswitch (by decide +kernel)⟩

namespace Spoken

variable {s : Settings} {c c' : Call} {k k' : Key} {v : Json}

theorem kindOf_get (h : s.Spoken) (k : Key) : kindOf (s.get k) = k.kind := by
  obtain ⟨word, hword⟩ := h k
  exact (Kind.has_of_read (hword "")).kindOf_eq

/-- A call means the same on all these settings. -/
theorem set_eq (h : s.Spoken) (c : Call) :
    s.set c.key c.word = c.change.map fun change => s.put change.1 change.2 := by
  unfold set Call.change
  cases Key.ofWord? c.key with
  | none => rfl
  | some k =>
      dsimp only
      rw [convert_eq_read, h.kindOf_get]
      cases k.kind.read c.key c.word <;> rfl

theorem attempt_of_change (h : s.Spoken) (hc : c.change = .ok (k, v)) :
    s.attempt c = (none, s.put k v) :=
  attempt_of_ok (by rw [h.set_eq, hc]; rfl)

theorem attempt_of_change_error {e : Error} (h : s.Spoken) (hc : c.change = .error e) :
    s.attempt c = (some e, s) :=
  attempt_of_error (by rw [h.set_eq, hc]; rfl)

theorem exists_change_of_attempt (h : s.Spoken) (hk : Key.ofWord? c.key = some k)
    (hnone : (s.attempt c).1 = none) : ∃ v, c.change = .ok (k, v) := by
  cases hc : c.change with
  | error e =>
      rw [h.attempt_of_change_error hc] at hnone
      cases hnone
  | ok change =>
      obtain ⟨hk', -⟩ := Call.change_eq_ok_iff.mp hc
      cases hk.symm.trans hk'
      exact ⟨_, rfl⟩

/-- Whether a call is refused depends on the call alone. -/
theorem attempt_fst_eq {s' : Settings} (h : s.Spoken) (h' : s'.Spoken) (c : Call) :
    (s.attempt c).1 = (s'.attempt c).1 := by
  cases hc : c.change with
  | error e => rw [h.attempt_of_change_error hc, h'.attempt_of_change_error hc]
  | ok change => rw [h.attempt_of_change hc, h'.attempt_of_change hc]

theorem attempt (h : s.Spoken) (c : Call) : (s.attempt c).2.Spoken := by
  cases hc : c.change with
  | error e =>
      rw [h.attempt_of_change_error hc]
      exact h
  | ok change =>
      obtain ⟨k, v⟩ := change
      obtain ⟨-, hv⟩ := Call.change_eq_ok_iff.mp hc
      rw [h.attempt_of_change hc]
      intro k'
      rw [get_put]
      split
      · next heq =>
          subst heq
          exact ⟨c.word, Kind.read_of_read hv⟩
      · exact h k'

theorem after (h : s.Spoken) (calls : List Call) : (s.after calls).Spoken := by
  induction calls generalizing s with
  | nil => exact h
  | cons c calls ih =>
      rw [after_cons]
      exact ih (h.attempt c)

/-- What a call leaves of the value of one setting does not depend on the others. -/
theorem get_attempt (h : s.Spoken) (c : Call) (k : Key) :
    (s.attempt c).2.get k = c.valueFor k (s.get k) := by
  unfold Call.valueFor
  cases hc : c.change with
  | error e => rw [h.attempt_of_change_error hc]
  | ok change => rw [h.attempt_of_change hc, get_put]

/-- Along a history, each setting goes its own way. -/
theorem get_after (h : s.Spoken) (calls : List Call) (k : Key) :
    (s.after calls).get k = calls.foldl (fun v c => c.valueFor k v) (s.get k) := by
  induction calls generalizing s with
  | nil => rfl
  | cons c calls ih => rw [after_cons, ih (h.attempt c), h.get_attempt, List.foldl_cons]

theorem get_after_of_change (h : s.Spoken) (hc : c.change = .ok (k, v)) :
    (s.after [c]).get k = v := by
  rw [h.get_after, List.foldl_cons, List.foldl_nil, Call.valueFor_of_change hc rfl]

/-- Calls on different settings commute. -/
theorem after_comm (h : s.Spoken) (hk : Key.ofWord? c.key = some k)
    (hk' : Key.ofWord? c'.key = some k') (hne : k ≠ k') : s.after [c, c'] = s.after [c', c] := by
  refine ext_get fun key => ?_
  rw [h.get_after, h.get_after]
  simp only [List.foldl_cons, List.foldl_nil]
  -- at most one of the calls is about this setting
  by_cases heq : key = k
  · rw [c'.valueFor_of_ne hk' (heq ▸ hne), c'.valueFor_of_ne hk' (heq ▸ hne)]
  · rw [c.valueFor_of_ne hk heq, c.valueFor_of_ne hk heq]

/-- A successful call makes an earlier one on the same setting as if it had not been. -/
theorem after_overwrite (h : s.Spoken) (hk : Key.ofWord? c.key = some k)
    (hc' : c'.change = .ok (k, v)) (between : List Call) :
    s.after (c :: (between ++ [c'])) = s.after (between ++ [c']) := by
  refine ext_get fun key => ?_
  rw [h.get_after, h.get_after, List.foldl_cons, List.foldl_append, List.foldl_append]
  simp only [List.foldl_cons, List.foldl_nil]
  by_cases heq : key = k
  · rw [Call.valueFor_of_change hc' heq, Call.valueFor_of_change hc' heq]
  · rw [c.valueFor_of_ne hk heq]

/-- Setting what is already there changes nothing. -/
theorem set_display (h : s.Spoken) {key : String} (hk : Key.ofWord? key = some k) :
    s.set key (s.get k).display = .ok s := by
  obtain ⟨word, hword⟩ := h k
  have hread := Kind.read_display (hword key) key
  rw [← h.kindOf_get] at hread
  rw [set_of_read hk hread]
  refine congrArg Except.ok (ext_get fun k' => ?_)
  rw [get_put]
  split
  · next heq => rw [heq]
  · rfl

end Spoken

/-- **The algebra of settings.** Let settings come from the defaults by any calls. Whether a call is
refused, and why, depends on its words alone. Calls on different settings commute. A successful call
alone determines the value of its setting: this value is the same after any other calls, and an
earlier call on the same setting is as if it had not been. A call that is refused changes nothing.
Setting a key to the text of its value, in any spellings of the key, changes nothing. -/
theorem set_algebra (calls : List Call) :
    let s := ({} : Settings).after calls
    (∀ calls' c, (s.attempt c).1 = ((({} : Settings).after calls').attempt c).1) ∧
    (∀ c c' k k', Key.ofWord? c.key = some k → Key.ofWord? c'.key = some k' → k ≠ k' →
      ∃ r r', s.outcomes [c, c'] = [r, r'] ∧ s.outcomes [c', c] = [r', r] ∧
        s.after [c, c'] = s.after [c', c]) ∧
    (∀ c k, Key.ofWord? c.key = some k → (s.attempt c).1 = none →
      (∀ calls', (s.after [c]).get k = (({} : Settings).after (calls' ++ [c])).get k) ∧
      ∀ c' between, Key.ofWord? c'.key = some k →
        s.after (c' :: (between ++ [c])) = s.after (between ++ [c])) ∧
    (∀ c later, (s.attempt c).1 ≠ none →
      s.after (c :: later) = s.after later ∧
        s.outcomes (c :: later) = (s.attempt c).1 :: s.outcomes later) ∧
    ∀ key key' k, Key.ofWord? key = some k → Key.ofWord? key' = some k →
      ∃ v, s.lookup key = .ok v ∧ s.set key' v.display = .ok s := by
  intro s
  have hs : s.Spoken := spoken_default.after calls
  refine ⟨fun calls' c => ?_, fun c c' k k' hk hk' hne => ?_, fun c k hk hc => ?_,
    fun c later hc => ?_, fun key key' k hk hk' => ?_⟩
  · exact hs.attempt_fst_eq (spoken_default.after calls') c
  · refine ⟨(s.attempt c).1, (s.attempt c').1, ?_, ?_, hs.after_comm hk hk' hne⟩
    · rw [outcomes, outcomes, outcomes, (hs.attempt c).attempt_fst_eq hs]
    · rw [outcomes, outcomes, outcomes, (hs.attempt c').attempt_fst_eq hs]
  · obtain ⟨v, hv⟩ := hs.exists_change_of_attempt hk hc
    refine ⟨fun calls' => ?_, fun c' between hk' => hs.after_overwrite hk' hv between⟩
    rw [after_append, hs.get_after_of_change hv,
      (spoken_default.after calls').get_after_of_change hv]
  · cases hset : s.set c.key c.word with
    | ok s' => exact absurd (congrArg Prod.fst (attempt_of_ok hset)) hc
    | error e =>
        rw [after_cons, outcomes, attempt_of_error hset]
        exact ⟨rfl, rfl⟩
  · exact ⟨s.get k, by rw [lookup, hk], hs.set_display hk'⟩

/-- Two words for a number, with a refused call between them: the last one counts, and its value is
what the number's own text sets again. -/
theorem set_algebra_sample :
    let c : Call := ⟨"Default-Baud", " 1_200 "⟩
    let c' : Call := ⟨"default_baud", "115200"⟩
    let refused : Call := ⟨"color", "maybe"⟩
    let s := ({} : Settings).after [⟨"verbose", "on"⟩]
    (s.attempt c).1 = none ∧ (s.attempt refused).1 ≠ none ∧
      s.after [c', refused, c] = s.after [c] ∧
      ∃ v, s.lookup "default_baud" = .ok v ∧ s.set " DEFAULT-BAUD" v.display = .ok s := by
  intro c c' refused s
  have hbaud : ∀ word ∈ [c.key, c'.key, " DEFAULT-BAUD"],
      Key.ofWord? word = some .defaultBaud := by decide +kernel
  have hc : ((({} : Settings).after []).attempt c).1 = none := by decide +kernel
  have hrefused : ((({} : Settings).after []).attempt refused).1 ≠ none := by decide +kernel
  obtain ⟨houtcome, -, hlast, hrefuse, htext⟩ := set_algebra [⟨"verbose", "on"⟩]
  rw [← houtcome []] at hc hrefused
  refine ⟨hc, hrefused, ?_, htext _ _ _ (hbaud _ ?_) (hbaud _ ?_)⟩
  · have hforgotten := (hlast c _ (hbaud _ ?_) hc).2 c' [refused] (hbaud _ ?_)
    · exact hforgotten.trans (hrefuse refused [c] hrefused).1
    · decide
    · decide
  · decide
  · decide

end Settings

end SketchBuild
