import SketchBuild.Proofs.Disk.Confined
import SketchBuild.Proofs.Json.RoundTrip
import SketchBuild.Proofs.Loading
import SketchBuild.Settings.Store

/-!
# Settings that are saved and loaded

Loading undoes saving, and saving what was loaded changes nothing.
-/

namespace SketchBuild

namespace Settings

open Text.Utf8 (encode)
open Json (Canonical FloatFree Plain)

/-! ## Members -/

/-- A fold over keys in which each key changes its own setting only. -/
theorem get_foldl {f : Settings → Key → Settings} {k : Key} {g : Json → Json}
    (hg : ∀ v, g (g v) = g v)
    (hf : ∀ s k', (f s k').get k = if k = k' then g (s.get k) else s.get k) (ks : List Key)
    (s : Settings) : (ks.foldl f s).get k = if k ∈ ks then g (s.get k) else s.get k := by
  induction ks generalizing s with
  | nil => rfl
  | cons k' ks ih =>
      rw [List.foldl_cons, ih, hf]
      by_cases hk : k = k'
      · rw [if_pos hk, if_pos (List.mem_cons.mpr (.inl hk)), hg, ite_self]
      · simp only [List.mem_cons, hk, false_or, if_false]

theorem get_ofMembers (ms : List (Text.Str × Json)) (k : Key) :
    (ofMembers ms).get k = (Json.member? k.name ms).getD (({} : Settings).get k) := by
  refine (get_foldl (fun v => ?_) (fun s k' => ?_) Key.all {}).trans (if_pos k.mem_all)
  · cases Json.member? k.name ms <;> rfl
  · split
    · next v hv =>
        rw [get_put]
        split
        · next heq => rw [heq, hv, Option.getD_some]
        · rfl
    · next hv =>
        split
        · next heq => rw [heq, hv, Option.getD_none]
        · rfl

/-- The members of a settings file. -/
def members (s : Settings) : List (Text.Str × Json) := Key.all.map fun k => (.text k.name, s.get k)

theorem toJson_eq (s : Settings) : s.toJson = .obj s.members := by
  rw [toJson, Json.object, List.map_map]
  rfl

theorem member?_members (s : Settings) (k : Key) :
    Json.member? k.name s.members = some (s.get k) := by
  cases k <;> rfl

theorem ofMembers_members (s : Settings) : ofMembers s.members = s :=
  ext_get fun k => by rw [get_ofMembers, member?_members, Option.getD_some]

theorem mem_members_iff {s : Settings} {m : Text.Str × Json} :
    m ∈ s.members ↔ ∃ k, m = (.text k.name, s.get k) := by
  simp only [members, List.mem_map, Key.mem_all, true_and, eq_comm]

theorem canonical_toJson {s : Settings} (h : ∀ k, Canonical (s.get k)) : Canonical s.toJson := by
  rw [toJson_eq]
  refine Json.canonical_obj.mpr ⟨fun m hm => ?_, ?_⟩
  · obtain ⟨k, rfl⟩ := mem_members_iff.mp hm
    exact ⟨rfl, h k⟩
  · have hnames : (Key.all.map fun k => Text.Str.text k.name).Nodup := by decide
    rw [members, List.map_map]
    exact hnames

theorem floatFree_toJson {s : Settings} (h : ∀ k, FloatFree (s.get k)) : FloatFree s.toJson := by
  rw [toJson_eq]
  refine Json.all_obj.mpr ⟨rfl, fun m hm => ?_⟩
  obtain ⟨k, rfl⟩ := mem_members_iff.mp hm
  exact h k

/-! ## Files -/

/-- The file that settings are kept in: the given one, or the user's if it can be told. -/
def path? (given : Option Path) (env : Environment) : Option Path :=
  given.or ((configDir? env).map fun dir => (dir.child "godotino").child "config.json")

theorem fileOr_eq_ok_iff {given : Option Path} {p : Path} {w w' : World} :
    fileOr given w = .ok p w' ↔ w' = w ∧ path? given w.env = some p := by
  cases given with
  | some q =>
      show EStateM.Result.ok q w = .ok p w' ↔ _
      simp [path?, eq_comm, and_comm]
  | none =>
      show file w = .ok p w' ↔ _
      rw [file, Action.bind_of_ok (rfl : Action.world w = .ok w w), path?, Option.none_or]
      cases configDir? w.env with
      | none =>
          refine iff_of_false ?_ (by simp)
          intro h
          cases h
      | some dir =>
          show EStateM.Result.ok _ w = .ok p w' ↔ _
          simp [eq_comm, and_comm]

theorem load_eq_ok_iff {given : Option Path} {s : Settings} {w w' : World} :
    load given w = .ok s w' ↔
      w' = w ∧ ∃ p, path? given w.env = some p ∧
        (w.disk.exists? p = .ok false ∧ s = {} ∨
          ∃ cs x ms, w.disk.stat p = .ok (.file (encode cs) x) ∧
            Json.parse (w.host.room.reads .settings) (Text.unifyBreaks cs) = .ok (.obj ms) ∧
            s = ofMembers ms) := by
  constructor
  · intro h
    obtain ⟨p, w₁, hfile, h₁⟩ := Action.bind_eq_ok_iff.mp h
    obtain ⟨rfl, hp⟩ := fileOr_eq_ok_iff.mp hfile
    obtain ⟨there, w₂, hask, h₂⟩ := Action.bind_eq_ok_iff.mp h₁
    obtain ⟨hthere, rfl⟩ := Action.ask_eq_ok_iff.mp hask
    cases there with
    | false =>
        cases h₂
        exact ⟨rfl, p, hp, .inl ⟨hthere, rfl⟩⟩
    | true =>
        obtain ⟨v, w₃, hread, h₃⟩ := Action.bind_eq_ok_iff.mp h₂
        obtain ⟨rfl, cs, x, hstat, hparse⟩ := Action.readJson_eq_ok_iff.mp hread
        cases v with
        | obj ms =>
            cases h₃
            exact ⟨rfl, p, hp, .inr ⟨cs, x, ms, hstat, hparse, rfl⟩⟩
        | null | bool | int | float | str | arr => cases h₃
  · rintro ⟨rfl, p, hp, hfile⟩
    rw [load, Action.bind_of_ok (fileOr_eq_ok_iff.mpr ⟨rfl, hp⟩)]
    obtain ⟨hthere, rfl⟩ | ⟨cs, x, ms, hstat, hparse, rfl⟩ := hfile
    · rw [Action.bind_of_ok (Action.ask_of_ok hthere)]
      rfl
    · have hthere : w'.disk.exists? p = .ok true := by rw [Disk.exists?, Disk.ask, hstat]
      rw [Action.bind_of_ok (Action.ask_of_ok hthere)]
      exact Action.bind_of_ok (Action.readJson_eq_ok_iff.mpr ⟨rfl, cs, x, hstat, hparse⟩)

/-- Settings are saved once the directories above the file are there and the stack has room. -/
theorem save_apply {given : Option Path} {s : Settings} {p : Path} {w : World} {d : Disk}
    (hp : path? given w.env = some p) (hmake : w.disk.makePath p.parent = (none, d)) :
    save s given w =
      (match w.host.room.copying? s.toJson with
        | some e => throw (.nesting e)
        | none => do
          Action.writeText p s.fileText
          return p : Action Path) { w with disk := d } := by
  rw [save, Action.bind_of_ok (fileOr_eq_ok_iff.mpr ⟨rfl, hp⟩),
    Action.bind_of_ok (Action.makePath_of_none hmake)]
  rfl

theorem save_of_copying? {given : Option Path} {s : Settings} {p : Path} {w : World} {d : Disk}
    {e : Json.TooDeep} (hp : path? given w.env = some p)
    (hmake : w.disk.makePath p.parent = (none, d))
    (hroom : w.host.room.copying? s.toJson = some e) :
    save s given w = .error (.nesting e) { w with disk := d } := by
  rw [save_apply hp hmake, hroom]
  rfl

theorem save_eq_ok_iff {given : Option Path} {s : Settings} {p : Path} {w w' : World} :
    save s given w = .ok p w' ↔
      path? given w.env = some p ∧ w.host.room.copying? s.toJson = none ∧
        ∃ d d', w.disk.makePath p.parent = (none, d) ∧
          d.writeFile p (encode s.fileText) = .ok d' ∧ w' = { w with disk := d' } := by
  constructor
  · intro h
    obtain ⟨q, w₁, hfile, h₁⟩ := Action.bind_eq_ok_iff.mp h
    obtain ⟨rfl, hp⟩ := fileOr_eq_ok_iff.mp hfile
    obtain ⟨⟨⟩, w₂, hmake, -⟩ := Action.bind_eq_ok_iff.mp h₁
    obtain ⟨d, hd, rfl⟩ := Action.changePartly_eq_ok_iff.mp hmake
    rw [save_apply hp hd] at h
    cases hroom : w₁.host.room.copying? s.toJson with
    | some e =>
        rw [hroom] at h
        cases h
    | none =>
        rw [hroom] at h
        obtain ⟨⟨⟩, w₃, hwrite, hend⟩ := Action.bind_eq_ok_iff.mp h
        obtain ⟨d', hd', rfl⟩ := Action.change_eq_ok_iff.mp hwrite
        cases hend
        exact ⟨hp, rfl, d, d', hd, hd', rfl⟩
  · rintro ⟨hp, hroom, d, d', hmake, hwrite, rfl⟩
    rw [save_apply hp hmake, hroom]
    exact Action.bind_of_ok (Action.change_of_ok hwrite)

/-- Each value is nested less deeply than the whole. -/
theorem depth_get_lt (s : Settings) (k : Key) : (s.get k).depth < s.toJson.depth := by
  rw [toJson_eq, Json.depth, Nat.lt_succ_iff]
  exact Json.depthOfMembers_le_iff.mp (Nat.le_refl _) _ (mem_members_iff.mpr ⟨k, rfl⟩)

/-- Settings that come from a file are nested no deeper than the file may be. -/
theorem depth_ofMembers_le {ms : List (Text.Str × Json)} {n : Nat}
    (h : (Json.obj ms).depth ≤ n) : (ofMembers ms).toJson.depth ≤ n := by
  rw [Json.depth] at h
  rw [toJson_eq, Json.depth]
  refine Nat.le_trans (Nat.succ_le_succ (Json.depthOfMembers_le_iff.mpr fun m hm => ?_)) h
  obtain ⟨k, rfl⟩ := mem_members_iff.mp hm
  rw [get_ofMembers]
  cases hfound : Json.member? k.name ms with
  | none => cases k <;> exact Nat.zero_le _
  | some v =>
      obtain ⟨before, after, rfl, -⟩ := List.lookup_eq_some_iff.mp hfound
      exact Json.depthOfMembers_le_iff.mp (Nat.le_refl _) _
        (List.mem_append_right before List.mem_cons_self)

/-- What was saved is loaded from the file that holds it. -/
theorem load_of_fileText {given : Option Path} {p : Path} {w : World} {s : Settings} {x : Bool}
    (hp : path? given w.env = some p) (hstat : w.disk.stat p = .ok (.file (encode s.fileText) x))
    (hc : ∀ k, Canonical (s.get k)) (hf : ∀ k, FloatFree (s.get k))
    (hd : s.toJson.depth ≤ w.host.room.reads .settings) : load given w = .ok s w := by
  have hfloat := floatFree_toJson hf
  have hbreaks : Text.unifyBreaks s.fileText = s.fileText := by
    refine Text.unifyBreaks_eq_self fun c hc heq => ?_
    rcases List.mem_append.mp hc with hc | hc
    · exact absurd (heq ▸ Json.isPrinted_of_mem_write hfloat 0 c hc) (by decide)
    · exact absurd (heq ▸ List.mem_singleton.mp hc) (by decide)
  refine load_eq_ok_iff.mpr ⟨rfl, p, hp, .inr ⟨s.fileText, x, s.members, hstat, ?_, ?_⟩⟩
  · rw [hbreaks, fileText, Json.parse_write (canonical_toJson hc) hfloat hd, toJson_eq]
  · rw [ofMembers_members]

/-- Saving again what the file holds changes nothing. -/
theorem save_of_fileText {given : Option Path} {p : Path} {w : World} {s : Settings} {x : Bool}
    (hp : path? given w.env = some p) (hparent : w.disk.stat p.parent = .ok .directory)
    (hstat : w.disk.stat p = .ok (.file (encode s.fileText) x))
    (hroom : w.host.room.copying? s.toJson = none) :
    ∃ w', save s given w = .ok p w' ∧ Disk.Same w.disk w'.disk := by
  obtain ⟨d, hwrite, hsame⟩ := Disk.writeFile_of_stat hstat
  exact ⟨_, save_eq_ok_iff.mpr ⟨hp, hroom, w.disk, d, Disk.makePath_of_stat hparent, hwrite, rfl⟩,
    hsame⟩

/-- What is there after settings were saved. -/
theorem stat_of_save {given : Option Path} {p : Path} {w w' : World} {s : Settings}
    (h : save s given w = .ok p w') :
    w'.env = w.env ∧ w'.host = w.host ∧ w'.disk.stat p.parent = .ok .directory ∧
      ∃ x, w'.disk.stat p = .ok (.file (encode s.fileText) x) := by
  obtain ⟨-, -, d, d', hmake, hwrite, rfl⟩ := save_eq_ok_iff.mp h
  exact ⟨rfl, rfl, Disk.stat_directory_of_writeFile hwrite (Disk.makePath_made hmake).stat, _,
    Disk.stat_of_writeFile hwrite⟩

theorem exists_save_iff {s : Settings} {given : Option Path} {p : Path} {w : World}
    (hp : path? given w.env = some p) {d : Disk} (hmake : w.disk.makePath p.parent = (none, d)) :
    (∃ w', save s given w = .ok p w') ↔
      w.host.room.copying? s.toJson = none ∧
        ∃ q, d.locate p = .ok q ∧ q.occupant? d.tree ≠ some .directory := by
  rw [← Disk.exists_writeFile_iff (c := encode s.fileText)]
  constructor
  · rintro ⟨w', h⟩
    obtain ⟨-, hroom, d₁, d', hmake', hwrite, -⟩ := save_eq_ok_iff.mp h
    cases hmake.symm.trans hmake'
    exact ⟨hroom, d', hwrite⟩
  · rintro ⟨hroom, d', hwrite⟩
    exact ⟨_, save_eq_ok_iff.mpr ⟨hp, hroom, d, d', hmake, hwrite, rfl⟩⟩

/-- Settings that were saved come back if the stack has room to read them. -/
theorem load_of_save_iff {s : Settings} {given : Option Path} {p : Path} {w w' : World}
    (h : save s given w = .ok p w') (hc : ∀ k, Canonical (s.get k))
    (hf : ∀ k, FloatFree (s.get k)) :
    load given w' = .ok s w' ↔ s.toJson.depth ≤ w.host.room.reads .settings := by
  obtain ⟨henv, hhost, -, x, hstat⟩ := stat_of_save h
  obtain ⟨hp, -⟩ := save_eq_ok_iff.mp h
  rw [← henv] at hp
  rw [← hhost]
  refine ⟨fun hload => ?_, load_of_fileText hp hstat hc hf⟩
  obtain ⟨-, q, hq, ⟨hthere, -⟩ | ⟨cs, x, ms, -, hparse, rfl⟩⟩ := load_eq_ok_iff.mp hload
  · -- the file is there
    cases hp.symm.trans hq
    rw [Disk.exists?, Disk.ask, hstat] at hthere
    cases hthere
  · exact depth_ofMembers_le (Json.fits_of_parse hparse).2

/-! ## Settings that were loaded and changed -/

/-- Settings that were loaded from a file and then changed by words any number of times. -/
inductive Reached : Settings → Prop
  | load {given : Option Path} {w w' : World} {s : Settings} (h : load given w = .ok s w') :
    Reached s
  | set {s s' : Settings} {key value : String} (h : Reached s) (hs : s.set key value = .ok s') :
    Reached s'

theorem natAbs_lt_of_readInt? {cs : List Char} {n : Int} (h : Text.readInt? cs = some n) :
    n.natAbs < 10 ^ Text.maxDigits := by
  unfold Text.readInt? at h
  dsimp only at h
  split at h
  · cases h
  · split at h
    · cases h
    · next m hm =>
        rw [← Option.some.inj h, Json.natAbs_signed]
        exact Json.lt_of_readDigits hm

theorem canonical_of_convert {current v : Json} {key value : String}
    (h : convert current key value = .ok v) : Canonical v ∧ FloatFree v := by
  unfold convert at h
  cases current with
  | bool b =>
      dsimp only at h
      split at h
      · cases h
        exact ⟨rfl, rfl⟩
      · cases h
  | int m =>
      dsimp only at h
      split at h
      · next n hn =>
          cases h
          exact ⟨Json.canonical_int.mpr (natAbs_lt_of_readInt? hn), rfl⟩
      · cases h
  | null | float | str | arr | obj =>
      cases h
      exact ⟨rfl, rfl⟩

theorem set_eq_ok_iff {s s' : Settings} {key value : String} :
    s.set key value = .ok s' ↔
      ∃ k v, Key.ofWord? key = some k ∧ convert (s.get k) key value = .ok v ∧ s' = s.put k v := by
  unfold set
  cases Key.ofWord? key with
  | none => simp
  | some k =>
      dsimp only
      cases hc : convert (s.get k) key value with
      | error e => simp [hc]
      | ok v => simp [hc, eq_comm]

theorem canonical_of_load {given : Option Path} {w w' : World} {s : Settings}
    (h : load given w = .ok s w') (k : Key) : Canonical (s.get k) := by
  have hdefault : ∀ k, Canonical (({} : Settings).get k) := by
    intro k
    cases k
    case defaultBaud =>
      have hbaud : 9600 < 10 ^ 4 := by decide
      exact Json.canonical_int.mpr
        (Nat.lt_of_lt_of_le hbaud (Nat.pow_le_pow_right (by decide) (by decide)))
    all_goals rfl
  obtain ⟨-, p, -, ⟨-, rfl⟩ | ⟨cs, x, ms, -, hparse, rfl⟩⟩ := load_eq_ok_iff.mp h
  · exact hdefault k
  · obtain ⟨hms, -⟩ := Json.canonical_obj.mp (Json.fits_of_parse hparse).1
    rw [get_ofMembers]
    cases hm : Json.member? k.name ms with
    | none => exact hdefault k
    | some v =>
        obtain ⟨before, after, rfl, -⟩ := List.lookup_eq_some_iff.mp hm
        exact (hms _ (List.mem_append_right before List.mem_cons_self)).2

theorem Reached.canonical {s : Settings} (h : Reached s) (k : Key) : Canonical (s.get k) := by
  induction h with
  | load h => exact canonical_of_load h k
  | set h hs ih =>
      obtain ⟨k', v, -, hv, rfl⟩ := set_eq_ok_iff.mp hs
      rw [get_put]
      split
      · exact (canonical_of_convert hv).1
      · exact ih

/-! ## Loading undoes saving -/

/-- **Settings that are saved come back, and saving them again changes nothing.** They are plain, or
were loaded and changed by words and hold no fractions. Once the directories above the file are
there, saving fails only where the stack has no room to copy the settings and for a path that leads
nowhere or to a directory. What was saved comes back exactly if the stack has room to read it. -/
theorem load_save {s : Settings}
    (hs : (∀ k, Plain (s.get k)) ∨ Reached s ∧ ∀ k, FloatFree (s.get k)) {given : Option Path}
    {p : Path} {w : World} (hp : path? given w.env = some p) {d : Disk}
    (hparent : w.disk.makePath p.parent = (none, d)) :
    ((∃ w', save s given w = .ok p w') ↔
      w.host.room.copying? s.toJson = none ∧
        ∃ q, d.locate p = .ok q ∧ q.occupant? d.tree ≠ some .directory) ∧
    ∀ w', save s given w = .ok p w' →
      (load given w' = .ok s w' ↔ s.toJson.depth ≤ w.host.room.reads .settings) ∧
        w'.disk.content? p = some (encode s.fileText) ∧
        ∃ w'', save s given w' = .ok p w'' ∧ Disk.Same w'.disk w''.disk := by
  have hc : ∀ k, Canonical (s.get k) := by
    rcases hs with h | ⟨h, -⟩
    · exact fun k => (h k).canonical
    · exact h.canonical
  have hf : ∀ k, FloatFree (s.get k) := by
    rcases hs with h | ⟨-, h⟩
    · exact fun k => (h k).floatFree
    · exact h
  refine ⟨exists_save_iff hp hparent, fun w' h => ?_⟩
  obtain ⟨henv, hhost, hdir, x, hstat⟩ := stat_of_save h
  obtain ⟨-, hroom, -⟩ := save_eq_ok_iff.mp h
  rw [← henv] at hp
  rw [← hhost] at hroom
  exact ⟨load_of_save_iff h hc hf, Disk.content?_eq_some_iff.mpr ⟨x, hstat⟩,
    save_of_fileText hp hdir hstat hroom⟩

/-! ## A sample -/

namespace Sample

/-- The file of the sample. -/
def file : Path := ⟨.slash, ["c", "godotino", "config.json"]⟩

/-- The world with the given entries, in which the user's settings are in that file. -/
def world (room : Room) (entries : List (Location × Entry)) : World where
  disk := ⟨.ofList entries, ⟨[], 0⟩, rfl⟩
  env := { home := none, configHome := some "/c", searchPath := none }
  tools := fun _ _ d => ⟨d.tree, .error .notFound⟩
  host := ⟨"", "", "", room⟩

theorem path?_world (room : Room) (entries : List (Location × Entry)) :
    path? none (world room entries).env = some file := by
  have h : path? none (world (.ofDepths 0 0) []).env = some file := by decide +kernel
  exact h

/-- On an empty disk the directories above the file can be made. -/
theorem makePath_world (room : Room) :
    ((world room []).disk.makePath file.parent).1 = none := by
  have h : ((world (.ofDepths 0 0) []).disk.makePath file.parent).1 = none := by decide +kernel
  exact h

/-- Settings with values of all kinds. -/
def settings : Settings :=
  { coreBinary := .text "é\"\\😀\n\x07"
    defaultBaud := .int (-5)
    verbose := .obj [(.text "a b", .arr [.null, .arr [], .obj []]), (.text "", .bool true)] }

theorem plain_settings : ∀ k, Plain (settings.get k) := by
  intro k
  cases k
  case defaultBaud => decide +kernel
  all_goals rfl

/-- A value inside `n` arrays. -/
def nested : Nat → Json
  | 0 => .null
  | n + 1 => .arr [nested n]

theorem plain_nested (n : Nat) : Plain (nested n) := by
  induction n with
  | zero => rfl
  | succ n ih => exact Json.all_arr.mpr ⟨rfl, List.forall_mem_singleton.mpr ih⟩

theorem depth_nested (n : Nat) : (nested n).depth = n := by
  induction n with
  | zero => rfl
  | succ n ih => rw [nested, Json.depth, Json.depthOfItems, Json.depthOfItems, ih, Nat.max_zero]

end Sample

/-- The sample is saved on an empty disk and comes back, with no more room than it needs. -/
theorem load_save_sample :
    let w := Sample.world (.ofDepths 4 4) []
    (∀ k, Plain (Sample.settings.get k)) ∧
      ∃ w', save Sample.settings none w = .ok Sample.file w' ∧
        load none w' = .ok Sample.settings w' := by
  intro w
  obtain ⟨hiff, hload⟩ := load_save (.inl Sample.plain_settings) (Sample.path?_world _ _)
    (Prod.ext (Sample.makePath_world (.ofDepths 4 4)) rfl)
  obtain ⟨w', hw'⟩ := hiff.mpr
    ⟨by decide +kernel, ⟨["c", "godotino", "config.json"], 0⟩, rfl, by decide +kernel⟩
  exact ⟨Sample.plain_settings, w', hw', (hload w' hw').1.mpr (by decide +kernel)⟩

/-- Plain settings are not saved if a value is nested so deeply that the stack runs out, however
much room it has, or if a directory has the name of the file. -/
theorem plain_settings_not_saved :
    (∀ read copied,
      let deep : Settings := { coreBinary := Sample.nested copied }
      (∀ k, Plain (deep.get k)) ∧
        ∃ w', save deep none (Sample.world (.ofDepths read copied) []) =
          .error (.nesting .elsewhere) w') ∧
    let blocked := Sample.world (.ofDepths 4 4)
      [(["c"], .directory), (["c", "godotino"], .directory),
        (["c", "godotino", "config.json"], .directory)]
    (∀ k, Plain (Sample.settings.get k)) ∧
      (blocked.disk.makePath Sample.file.parent).1 = none ∧
      ∃ w', save Sample.settings none blocked =
        .error (.file (.on .isDirectory Sample.file)) w' := by
  refine ⟨fun read copied => ⟨fun k => ?_, ?_⟩, Sample.plain_settings, by decide +kernel,
    ⟨_, Action.refusal?_eq_some_iff.mp (by decide +kernel)⟩⟩
  · cases k
    case coreBinary => exact Sample.plain_nested copied
    case defaultBaud =>
      show Plain (.int 9600)
      decide +kernel
    all_goals rfl
  · have hdepth := depth_get_lt { coreBinary := Sample.nested copied } .coreBinary
    rw [show (get { coreBinary := Sample.nested copied } .coreBinary).depth = copied from
      Sample.depth_nested copied] at hdepth
    exact ⟨_, save_of_copying? (Sample.path?_world _ _)
      (Prod.ext (Sample.makePath_world _) rfl) (if_neg (Nat.not_le_of_lt hdepth))⟩

end Settings

end SketchBuild
