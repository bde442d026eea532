import Mathlib.Data.List.Forall2
import SketchBuild.Manifest.Load
import SketchBuild.Proofs.LoadFaults

/-!
# The shape of a manifest

Which values are manifests is decided piece by piece while they are read. Here the accepted shape is
told as a whole: each section is a table of fields, and `Fits` says that a section gives no field
that is not in its table and every field that has no default. `Fills` says what a record that was
read from a section holds. `ofJson_accepts_iff` ties both to the reader.
-/

namespace SketchBuild.Manifest

open Json (member?)

/-! ## Fields -/

/-- A field of a record: its name in a file, its value where the file gives none, unless it must be
given, and its place in the record. -/
structure Field (ρ : Type) where
  name : String
  default : Option Json
  get : ρ → Json

def Dependency.fields : List (Field Dependency) :=
  [⟨"name", none, (·.name)⟩, ⟨"version", some (.text ""), (·.version)⟩,
    ⟨"kind", some (.text "go"), (·.kind)⟩]

def BuildSettings.fields : List (Field BuildSettings) :=
  [⟨"output_dir", some (.text "build"), (·.outputDir)⟩,
    ⟨"cpp_std", some (.text "c++11"), (·.cppStd)⟩,
    ⟨"optimize", some (.text "Os"), (·.optimize)⟩,
    ⟨"extra_flags", some (.arr []), (·.extraFlags)⟩,
    ⟨"source_map", some (.bool false), (·.sourceMap)⟩]

section Fields

variable {ρ : Type} {fields : List (Field ρ)} {ms : List (Text.Str × Json)} {r : ρ}

/-- The value that a field gets: the given one, or the default. -/
def Field.value? (f : Field ρ) (ms : List (Text.Str × Json)) : Option Json :=
  (member? f.name ms).or f.default

/-- Only these fields are given, and all that have no default are. -/
structure Fits (fields : List (Field ρ)) (ms : List (Text.Str × Json)) : Prop where
  known : ∀ m ∈ ms, ∃ f ∈ fields, m.1 = .text f.name
  given : ∀ f ∈ fields, f.default = none → (member? f.name ms).isSome = true

/-- Only these fields are given, and the record holds the value of each field, unchanged. -/
structure Fills (fields : List (Field ρ)) (ms : List (Text.Str × Json)) (r : ρ) : Prop where
  known : ∀ m ∈ ms, ∃ f ∈ fields, m.1 = .text f.name
  carried : ∀ f ∈ fields, f.value? ms = some (f.get r)

theorem Fills.fits (h : Fills fields ms r) : Fits fields ms := by
  refine ⟨h.known, fun f hf hdefault => ?_⟩
  have hvalue := h.carried f hf
  rw [Field.value?, hdefault, Option.or_none] at hvalue
  rw [hvalue]
  rfl

theorem Field.value?_of_default (name : String) (default : Json) (get : ρ → Json) :
    Field.value? ⟨name, some default, get⟩ ms = some (valueOr default name ms) := by
  rw [Field.value?, valueOr]
  cases member? name ms <;> rfl

theorem Field.value?_of_required (name : String) (get : ρ → Json) :
    Field.value? ⟨name, none, get⟩ ms = member? name ms :=
  Option.or_none

variable (fields) in
/-- No member is refused exactly if each has the name of a field. -/
theorem badMember?_eq_none_iff {part : Section} (hself : ∀ f ∈ fields, f.name ≠ "self") :
    badMember? part (fields.map (·.name)) ms = none ↔
      ∀ m ∈ ms, ∃ f ∈ fields, m.1 = .text f.name := by
  induction ms with
  | nil => simp [badMember?]
  | cons m ms ih =>
      obtain ⟨name, v⟩ := m
      rw [badMember?, List.forall_mem_cons]
      by_cases hreserved : name = .text "self"
      · rw [if_pos hreserved]
        refine iff_of_false (by simp) ?_
        rintro ⟨⟨f, hf, rfl⟩, -⟩
        exact hself f hf (Text.Str.text.inj hreserved)
      · rw [if_neg hreserved]
        have hcontains : ((fields.map (·.name)).map Text.Str.text).contains name = true ↔
            ∃ f ∈ fields, name = .text f.name := by
          simp [eq_comm]
        by_cases hknown : ∃ f ∈ fields, name = .text f.name
        · rw [if_pos (hcontains.mpr hknown), ih, and_iff_right hknown]
        · rw [if_neg (mt hcontains.mp hknown)]
          exact iff_of_false (by simp) fun h => hknown h.1

end Fields

/-! ## Sections -/

theorem BuildSettings.fills_of_ofMembers {ms : List (Text.Str × Json)} {b : BuildSettings}
    (h : ofMembers ms = .ok b) : Fills fields ms b := by
  rw [ofMembers] at h
  split at h
  · cases h
  · next hbad =>
      cases h
      refine ⟨(badMember?_eq_none_iff fields (by decide)).mp hbad, ?_⟩
      simp [fields, Field.value?_of_default]

theorem BuildSettings.exists_ofMembers_iff {ms : List (Text.Str × Json)} :
    (∃ b, ofMembers ms = .ok b) ↔ Fits fields ms := by
  constructor
  · rintro ⟨b, hb⟩
    exact (fills_of_ofMembers hb).fits
  · intro h
    have hbad : badMember? .build ["output_dir", "cpp_std", "optimize", "extra_flags", "source_map"]
        ms = none :=
      (badMember?_eq_none_iff fields (by decide)).mpr h.known
    rw [ofMembers, hbad]
    exact ⟨_, rfl⟩

theorem Dependency.fills_of_ofJson {v : Json} {d : Dependency} (h : ofJson v = .ok d) :
    ∃ ms, v = .obj ms ∧ Fills fields ms d := by
  cases v with
  | obj ms =>
      rw [ofJson] at h
      split at h
      · cases h
      · next hbad =>
          split at h
          · cases h
          · next name hname =>
              cases h
              refine ⟨ms, rfl, (badMember?_eq_none_iff fields (by decide)).mp hbad, ?_⟩
              simp [fields, Field.value?_of_default, Field.value?_of_required, hname]
  | _ => cases h

theorem Dependency.exists_ofJson_iff {v : Json} :
    (∃ d, ofJson v = .ok d) ↔ ∃ ms, v = .obj ms ∧ Fits fields ms := by
  constructor
  · rintro ⟨d, hd⟩
    obtain ⟨ms, rfl, hms⟩ := fills_of_ofJson hd
    exact ⟨ms, rfl, hms.fits⟩
  · rintro ⟨ms, rfl, h⟩
    have hbad : badMember? .dependency ["name", "version", "kind"] ms = none :=
      (badMember?_eq_none_iff fields (by decide)).mpr h.known
    obtain ⟨name, hname⟩ : ∃ name, member? "name" ms = some name :=
      Option.isSome_iff_exists.mp (h.given _ List.mem_cons_self rfl)
    rw [ofJson, hbad]
    dsimp only
    rw [hname]
    exact ⟨_, rfl⟩

/-- Dependencies are read one by one, in order. -/
theorem forall₂_of_readDependencies {vs : List Json} {ds : List Dependency}
    (h : readDependencies vs = .ok ds) :
    List.Forall₂ (fun v d => ∃ ms, v = .obj ms ∧ Fills Dependency.fields ms d) vs ds := by
  induction vs generalizing ds with
  | nil =>
      cases h
      exact .nil
  | cons v vs ih =>
      rw [readDependencies] at h
      split at h
      · cases h
      · next d hd =>
          split at h
          · cases h
          · next ds' hds =>
              cases h
              exact .cons (Dependency.fills_of_ofJson hd) (ih hds)

theorem exists_readDependencies_iff {vs : List Json} :
    (∃ ds, readDependencies vs = .ok ds) ↔
      ∀ v ∈ vs, ∃ ms, v = .obj ms ∧ Fits Dependency.fields ms := by
  induction vs with
  | nil => simp [readDependencies]
  | cons v vs ih =>
      rw [List.forall_mem_cons, ← ih, ← Dependency.exists_ofJson_iff, readDependencies]
      cases hd : Dependency.ofJson v with
      | error e => simp
      | ok d =>
          cases hds : readDependencies vs with
          | error e => simp
          | ok ds => simp

/-- The items of an array; any other value has none. -/
def itemsOf : Json → List Json
  | .arr items => items
  | _ => []

/-- The members of an object; any other value has none. -/
def membersOf : Json → List (Text.Str × Json)
  | .obj ms => ms
  | _ => []

/-- Strings are no dependencies. -/
theorem readDependencies_ne_ok_of_str {vs : List Json} {ds : List Dependency} (hne : vs ≠ [])
    (hstr : ∀ v ∈ vs, ∃ s, v = .str s) : readDependencies vs ≠ .ok ds := by
  intro h
  obtain ⟨v, vs, rfl⟩ := List.exists_cons_of_ne_nil hne
  obtain ⟨s, rfl⟩ := hstr _ List.mem_cons_self
  obtain ⟨ms, hms, -⟩ := exists_readDependencies_iff.mp ⟨ds, h⟩ _ List.mem_cons_self
  cases hms

theorem pieces_ne_nil {s : Text.Str} (h : (Json.str s).truthy = true) : s.pieces ≠ [] := by
  cases s with
  | text s => simpa [Json.truthy, Text.Str.isEmpty, Text.Str.pieces] using h
  | torn ps hps =>
      rintro rfl
      cases hps

/-- What is declared and can be read are the items of an array. -/
theorem declared_of_readDependencies {v : Json} {vs : List Json} {ds : List Dependency}
    (h : declared v = .ok vs) (hds : readDependencies vs = .ok ds) :
    vs = itemsOf v ∧ (v.truthy = true → ∃ items, v = .arr items) := by
  unfold declared at h
  by_cases htruthy : v.truthy = true
  · rw [if_neg (by simp [htruthy])] at h
    cases v with
    | arr items =>
        cases h
        exact ⟨rfl, fun _ => ⟨_, rfl⟩⟩
    | str s =>
        cases h
        refine absurd hds (readDependencies_ne_ok_of_str ?_ (by simp))
        simpa using pieces_ne_nil htruthy
    | obj ms =>
        cases h
        refine absurd hds (readDependencies_ne_ok_of_str (by simpa [Json.truthy] using htruthy) ?_)
        intro v hv
        obtain ⟨⟨name, value⟩, -, rfl⟩ := List.mem_map.mp hv
        exact ⟨name, rfl⟩
    | _ => cases h
  · rw [if_pos (by simp [htruthy])] at h
    cases h
    refine ⟨?_, fun h => absurd h htruthy⟩
    cases v with
    | arr items =>
        have hnil : items = [] := by simpa [Json.truthy] using htruthy
        rw [hnil]
        rfl
    | _ => rfl

theorem exists_declared_iff {v : Json} :
    (∃ vs ds, declared v = .ok vs ∧ readDependencies vs = .ok ds) ↔
      (v.truthy = true → ∃ items, v = .arr items ∧
        ∀ item ∈ items, ∃ ms, item = .obj ms ∧ Fits Dependency.fields ms) := by
  constructor
  · rintro ⟨vs, ds, hvs, hds⟩ htruthy
    obtain ⟨rfl, harr⟩ := declared_of_readDependencies hvs hds
    obtain ⟨items, rfl⟩ := harr htruthy
    exact ⟨items, rfl, exists_readDependencies_iff.mp ⟨ds, hds⟩⟩
  · intro h
    unfold declared
    by_cases htruthy : v.truthy = true
    · obtain ⟨items, rfl, hitems⟩ := h htruthy
      obtain ⟨ds, hds⟩ := exists_readDependencies_iff.mpr hitems
      exact ⟨items, ds, by simp [htruthy], hds⟩
    · exact ⟨[], [], by simp [htruthy], rfl⟩

/-! ## The whole manifest -/

/-- The members that stand for texts. What is given there is turned into a string. -/
def textFields : List (Field Manifest) :=
  [⟨"name", none, (.str ·.name)⟩, ⟨"board", some (.text ""), (.str ·.board)⟩,
    ⟨"version", some (.text "0.1.0"), (.str ·.version)⟩,
    ⟨"go_version", some (.text "1.21"), (.str ·.goVersion)⟩,
    ⟨"description", some (.text ""), (.str ·.description)⟩]

/-- The names of all members that matter. -/
def memberNames : List String := textFields.map (·.name) ++ ["dependencies", "build"]

/-- The documented shape. A section that is missing or does not count as true is as good as an empty
one. -/
structure WellShaped (ms : List (Text.Str × Json)) : Prop where
  named : ∃ v, member? "name" ms = some v ∧ v.truthy = true
  build : ∀ v, member? "build" ms = some v → v.truthy = true →
    ∃ bs, v = .obj bs ∧ Fits BuildSettings.fields bs
  dependencies : ∀ v, member? "dependencies" ms = some v → v.truthy = true →
    ∃ items, v = .arr items ∧ ∀ item ∈ items, ∃ ds, item = .obj ds ∧ Fits Dependency.fields ds

/-- What a manifest holds that was read from these members. -/
structure Carries (ms : List (Text.Str × Json)) (m : Manifest) : Prop where
  texts : ∀ f ∈ textFields, (f.value? ms).map (.str ·.toStr) = some (f.get m)
  build : Fills BuildSettings.fields (membersOf (valueOr .null "build" ms)) m.build
  dependencies : List.Forall₂ (fun v d => ∃ ds, v = .obj ds ∧ Fills Dependency.fields ds d)
    (itemsOf (valueOr .null "dependencies" ms)) m.dependencies

section Members

variable {ms ms' : List (Text.Str × Json)} {m : Manifest}

theorem membersOf_of_not_truthy {v : Json} (h : ¬ v.truthy = true) : membersOf v = [] := by
  cases v with
  | obj members => simpa [Json.truthy, membersOf] using h
  | _ => rfl

theorem truthy_valueOr_iff {name : String} {P : Json → Prop} :
    (∀ v, member? name ms = some v → v.truthy = true → P v) ↔
      ((valueOr .null name ms).truthy = true → P (valueOr .null name ms)) := by
  rw [valueOr]
  cases member? name ms with
  | none => simp [Json.truthy]
  | some v => simp

theorem buildMembers_eq_ok_iff {bs : List (Text.Str × Json)} :
    buildMembers ms = .ok bs ↔
      bs = membersOf (valueOr .null "build" ms) ∧
        ((valueOr .null "build" ms).truthy = true → ∃ bs, valueOr .null "build" ms = .obj bs) := by
  unfold buildMembers
  generalize valueOr .null "build" ms = v
  by_cases htruthy : v.truthy = true
  · rw [if_neg (by simp [htruthy])]
    cases v with
    | obj members =>
        constructor
        · intro h
          cases h
          exact ⟨rfl, fun _ => ⟨_, rfl⟩⟩
        · rintro ⟨rfl, -⟩
          rfl
    | _ => simp [htruthy]
  · rw [if_pos (by simp [htruthy])]
    simp [htruthy, membersOf_of_not_truthy htruthy, eq_comm]

theorem sections_eq_ok_iff {deps : Json} {bs : List (Text.Str × Json)} {ds : List Dependency}
    {b : BuildSettings} :
    sections deps bs = .ok (ds, b) ↔
      (∃ vs, declared deps = .ok vs ∧ readDependencies vs = .ok ds) ∧
        BuildSettings.ofMembers bs = .ok b := by
  rw [sections]
  cases hvs : declared deps with
  | error e => simp
  | ok vs =>
      cases hds : readDependencies vs with
      | error e => simp [hds]
      | ok ds' => cases hb : BuildSettings.ofMembers bs <;> simp [hds]

theorem named_iff :
    (∃ v, member? "name" ms = some v ∧ v.truthy = true) ↔
      (valueOr .null "name" ms).truthy = true := by
  rw [valueOr]
  cases member? "name" ms with
  | none => simp [Json.truthy]
  | some v => simp

/-- The texts of a manifest, one by one. -/
theorem forall_textFields_iff (hname : (valueOr .null "name" ms).truthy = true) :
    (∀ f ∈ textFields, (f.value? ms).map (.str ·.toStr) = some (f.get m)) ↔
      (valueOr .null "name" ms).toStr = m.name ∧
      (valueOr (.text "") "board" ms).toStr = m.board ∧
      (valueOr (.text "0.1.0") "version" ms).toStr = m.version ∧
      (valueOr (.text "1.21") "go_version" ms).toStr = m.goVersion ∧
      (valueOr (.text "") "description" ms).toStr = m.description := by
  obtain ⟨v, hv, -⟩ := named_iff.mpr hname
  have hvalue : valueOr .null "name" ms = v := by rw [valueOr, hv, Option.getD_some]
  simp [textFields, Field.value?_of_default, Field.value?_of_required, hv, hvalue]

/-- What has been read when an object is accepted. -/
theorem ofJson_eq_ok_iff :
    ofJson (.obj ms) = .ok m ↔
      (valueOr .null "name" ms).truthy = true ∧
      (∀ f ∈ textFields, (f.value? ms).map (.str ·.toStr) = some (f.get m)) ∧
      ∃ bs, buildMembers ms = .ok bs ∧
        sections (valueOr .null "dependencies" ms) bs = .ok (m.dependencies, m.build) := by
  rw [ofJson]
  by_cases hname : (valueOr .null "name" ms).truthy = true
  · rw [if_neg (by simp [hname]), and_iff_right hname, forall_textFields_iff hname]
    cases hbs : buildMembers ms with
    | error e => simp
    | ok bs =>
        dsimp only
        cases hsections : sections (valueOr .null "dependencies" ms) bs with
        | error e => simp [hsections]
        | ok r =>
            obtain ⟨ds, b⟩ := r
            cases m
            simp [hsections, and_assoc]
  · rw [if_pos (by simp [hname])]
    exact iff_of_false (by simp) fun h => hname h.1

/-- **Exactly the objects of the documented shape are accepted.** -/
theorem exists_ofJson_iff : (∃ m, ofJson (.obj ms) = .ok m) ↔ WellShaped ms := by
  constructor
  · rintro ⟨m, hm⟩
    obtain ⟨hname, -, bs, hbs, hsections⟩ := ofJson_eq_ok_iff.mp hm
    obtain ⟨⟨vs, hvs, hds⟩, hb⟩ := sections_eq_ok_iff.mp hsections
    obtain ⟨rfl, hobj⟩ := buildMembers_eq_ok_iff.mp hbs
    refine ⟨named_iff.mpr hname, truthy_valueOr_iff.mpr fun htruthy => ?_,
      truthy_valueOr_iff.mpr (exists_declared_iff.mp ⟨vs, _, hvs, hds⟩)⟩
    obtain ⟨bs, hbs⟩ := hobj htruthy
    rw [hbs] at hb
    exact ⟨bs, hbs, BuildSettings.exists_ofMembers_iff.mp ⟨_, hb⟩⟩
  · rintro ⟨hnamed, hbuild, hdeps⟩
    have hname := named_iff.mp hnamed
    rw [truthy_valueOr_iff] at hbuild hdeps
    obtain ⟨vs, ds, hvs, hds⟩ := exists_declared_iff.mpr hdeps
    have hfits : Fits BuildSettings.fields (membersOf (valueOr .null "build" ms)) := by
      by_cases htruthy : (valueOr .null "build" ms).truthy = true
      · obtain ⟨bs, hbs, hfits⟩ := hbuild htruthy
        rwa [hbs]
      · rw [membersOf_of_not_truthy htruthy]
        exact ⟨by simp, by simp [BuildSettings.fields]⟩
    obtain ⟨b, hb⟩ := BuildSettings.exists_ofMembers_iff.mpr hfits
    let m : Manifest :=
      { name := (valueOr .null "name" ms).toStr
        board := (valueOr (.text "") "board" ms).toStr
        version := (valueOr (.text "0.1.0") "version" ms).toStr
        goVersion := (valueOr (.text "1.21") "go_version" ms).toStr
        description := (valueOr (.text "") "description" ms).toStr
        dependencies := ds
        build := b }
    have htexts := (forall_textFields_iff (m := m) hname).mpr ⟨rfl, rfl, rfl, rfl, rfl⟩
    have hbs : buildMembers ms = .ok (membersOf (valueOr .null "build" ms)) := by
      refine buildMembers_eq_ok_iff.mpr ⟨rfl, fun htruthy => ?_⟩
      obtain ⟨bs, hbs, -⟩ := hbuild htruthy
      exact ⟨bs, hbs⟩
    exact ⟨m, ofJson_eq_ok_iff.mpr
      ⟨hname, htexts, _, hbs, sections_eq_ok_iff.mpr ⟨⟨vs, hvs, hds⟩, hb⟩⟩⟩

theorem carries_of_ofJson (h : ofJson (.obj ms) = .ok m) : Carries ms m := by
  obtain ⟨-, htexts, bs, hbs, hsections⟩ := ofJson_eq_ok_iff.mp h
  obtain ⟨⟨vs, hvs, hds⟩, hb⟩ := sections_eq_ok_iff.mp hsections
  obtain ⟨rfl, -⟩ := buildMembers_eq_ok_iff.mp hbs
  obtain ⟨rfl, -⟩ := declared_of_readDependencies hvs hds
  exact ⟨htexts, BuildSettings.fills_of_ofMembers hb, forall₂_of_readDependencies hds⟩

/-- Members of other names make no difference. -/
theorem ofJson_congr (h : ∀ name ∈ memberNames, member? name ms' = member? name ms) :
    ofJson (.obj ms') = ofJson (.obj ms) := by
  have hvalue : ∀ name ∈ memberNames, ∀ default,
      valueOr default name ms' = valueOr default name ms := by
    intro name hname default
    rw [valueOr, valueOr, h name hname]
  simp only [memberNames, textFields, List.map_cons, List.map_nil, List.cons_append,
    List.nil_append, List.forall_mem_cons] at hvalue
  obtain ⟨hname, hboard, hversion, hgo, hdescription, hdeps, hbuild, -⟩ := hvalue
  simp only [ofJson, buildMembers, hname, hboard, hversion, hgo, hdescription, hdeps, hbuild]

end Members

open Text.Utf8 (encode)

/-- A manifest file that can be read is a manifest as its value is. -/
theorem load_of_parse {dir : Path} {w : World} {cs : List Char} {x : Bool} {d : Json}
    (hstat : w.disk.stat (dir.child fileName) = .ok (.file (encode cs) x))
    (hparse : Json.parse (w.host.room.reads .manifest) (Text.unifyBreaks cs) = .ok d) :
    load dir w = Action.ofExcept .manifest (ofJson d) w := by
  have hread : Action.readJson .manifest (dir.child fileName)
      (fun e => .manifest (.unreadable (dir.child fileName) e)) w = .ok d w :=
    Action.readJson_eq_ok_iff.mpr ⟨rfl, cs, x, hstat, hparse⟩
  rw [load, Action.bind_of_ok (Action.ask_exists?_of_stat hstat)]
  exact Action.bind_of_ok hread

/-- **Which values are manifests.** A value is accepted exactly if it is an object of the documented
shape. The manifest then holds what the object gives, and its defaults for the rest; members of
other names make no difference. A file that holds any other value is reported by a manifest error,
and by nothing else. -/
theorem ofJson_accepts_iff (d : Json) :
    ((∃ m, ofJson d = .ok m) ↔ ∃ ms, d = .obj ms ∧ WellShaped ms) ∧
    (∀ ms m, d = .obj ms → ofJson d = .ok m → Carries ms m) ∧
    (∀ ms ms', d = .obj ms → (∀ name ∈ memberNames, member? name ms' = member? name ms) →
      ofJson (.obj ms') = ofJson d) ∧
    ∀ dir w cs x, w.disk.stat (dir.child fileName) = .ok (.file (encode cs) x) →
      Json.parse (w.host.room.reads .manifest) (Text.unifyBreaks cs) = .ok d →
      ((∃ m, load dir w = .ok m w) ↔ ∃ ms, d = .obj ms ∧ WellShaped ms) ∧
      Action.FailsOnly (fun f => ∃ e, f = .manifest e) (load dir) w := by
  have haccepts : (∃ m, ofJson d = .ok m) ↔ ∃ ms, d = .obj ms ∧ WellShaped ms := by
    cases d with
    | obj ms => simp [exists_ofJson_iff]
    | _ => simp [ofJson]
  refine ⟨haccepts, ?_, ?_, ?_⟩
  · rintro ms m rfl h
    exact carries_of_ofJson h
  · rintro ms ms' rfl h
    exact ofJson_congr h
  · intro dir w cs x hstat hparse
    refine ⟨?_, (failsOnly_load hstat).1.mpr ⟨cs, rfl, .inl ⟨d, hparse⟩⟩⟩
    rw [load_of_parse hstat hparse, ← haccepts]
    cases ofJson d with
    | ok m => exact iff_of_true ⟨m, rfl⟩ ⟨m, rfl⟩
    | error e => exact iff_of_false (by rintro ⟨m, h⟩; cases h) (by simp)

/-! ## Samples -/

namespace ShapeSample

open LoadFaults (world dir faultName?)

/-- A manifest whose name is a number. -/
def named : List Char :=
  ("\x7b\"name\": 7, \"dependencies\": [\x7b\"kind\": null, \"name\": \"\"\x7d], " ++
    "\"build\": \x7b\"source_map\": 1\x7d\x7d").toList

/-- A text where the dependencies should be. -/
def listed : List Char := "\x7b\"name\": \"blink\", \"dependencies\": \"servo\"\x7d".toList

/-- A file that can be read, and whether it is a manifest. -/
theorem exists_parse {cs : List Char} {fault : Option String}
    (h : (Json.parse 3 (Text.unifyBreaks cs)).isOk = true ∧
      faultName? (load dir) (world 3 (encode cs)) = fault) :
    ∃ d, Json.parse 3 (Text.unifyBreaks cs) = .ok d ∧
      (fault = none ↔ ∃ m, ofJson d = .ok m) := by
  obtain ⟨hok, hfault⟩ := h
  cases hparse : Json.parse 3 (Text.unifyBreaks cs) with
  | error e =>
      rw [hparse] at hok
      cases hok
  | ok d =>
      have hstat : (world 3 (encode cs)).disk.stat (dir.child fileName) =
          .ok (.file (encode cs) false) := rfl
      rw [faultName?, load_of_parse hstat hparse] at hfault
      refine ⟨d, rfl, ?_⟩
      rw [← hfault]
      cases ofJson d with
      | ok m => exact iff_of_true rfl ⟨m, rfl⟩
      | error e => exact iff_of_false (Option.some_ne_none _) (by simp)

end ShapeSample

open ShapeSample LoadFaults in
/-- The first sample is a manifest, also with a member that means nothing; the second is
reported. -/
theorem ofJson_accepts_sample :
    (∃ ms m, Json.parse 3 (Text.unifyBreaks named) = .ok (.obj ms) ∧ ofJson (.obj ms) = .ok m ∧
      WellShaped ms ∧ Carries ms m ∧
      ofJson (.obj ((.text "author", .null) :: ms)) = .ok m ∧
      ∃ m', load dir (world 3 (encode named)) = .ok m' (world 3 (encode named))) ∧
    (∃ d, Json.parse 3 (Text.unifyBreaks listed) = .ok d ∧ ¬ ∃ ms, d = .obj ms ∧ WellShaped ms) ∧
    Action.FailsOnly (fun f => ∃ e, f = .manifest e) (load dir) (world 3 (encode listed)) ∧
    faultName? (load dir) (world 3 (encode listed)) = some "ManifestError" := by
  have hnamed : (Json.parse 3 (Text.unifyBreaks named)).isOk = true ∧
      faultName? (load dir) (world 3 (encode named)) = none := by
    decide +kernel
  have hlisted : (Json.parse 3 (Text.unifyBreaks listed)).isOk = true ∧
      faultName? (load dir) (world 3 (encode listed)) = some "ManifestError" := by
    decide +kernel
  obtain ⟨d, hd, haccepted⟩ := exists_parse hnamed
  obtain ⟨d', hd', hrefused⟩ := exists_parse hlisted
  obtain ⟨hiff, hcarries, hother, hload⟩ := ofJson_accepts_iff d
  obtain ⟨hiff', -, -, hload'⟩ := ofJson_accepts_iff d'
  obtain ⟨m, hm⟩ := haccepted.mp rfl
  obtain ⟨ms, rfl, hshape⟩ := hiff.mp ⟨m, hm⟩
  have hauthor : ∀ name ∈ memberNames,
      member? name ((.text "author", .null) :: ms) = member? name ms := by
    intro name hname
    have hne : (Text.Str.text name == .text "author") = false := by
      rw [beq_eq_false_iff_ne]
      intro heq
      cases heq
      revert hname
      decide
    rw [member?, List.lookup_cons, hne]
    rfl
  refine ⟨⟨ms, m, hd, hm, hshape, hcarries ms m rfl hm, (hother ms _ rfl hauthor).trans hm,
    (hload dir _ named false rfl hd).1.mpr ⟨ms, rfl, hshape⟩⟩, ⟨d', hd', ?_⟩,
    (hload' dir _ listed false rfl hd').2, hlisted.2⟩
  rw [← hiff', ← hrefused]
  exact Option.some_ne_none _

end SketchBuild.Manifest
