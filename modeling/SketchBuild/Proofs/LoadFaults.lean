import SketchBuild.Manifest.Load
import SketchBuild.Proofs.Json.Limits
import SketchBuild.Proofs.Settings.Store

/-!
# Faults of the loaders

Manifests and settings are loaded from files that anybody may have edited. A loader reports a file
that it cannot use by an error of its own, unless the fault lies below the syntax: bytes that encode
no text, a number with too many digits, values that are nested more deeply than the stack has room
for. Those three go through both loaders as they are (`loaders_own_faults_iff`).
-/

namespace SketchBuild

open Text.Utf8 (encode)

/-- The bytes encode a text that is read, or refused for its syntax, where values may be nested
`depth` deep. -/
def BySyntax (depth : Nat) (bs : List UInt8) : Prop :=
  ∃ cs, bs = encode cs ∧
    ((∃ v, Json.parse depth (Text.unifyBreaks cs) = .ok v) ∨
      ∃ e, Json.parse depth (Text.unifyBreaks cs) = .error (.badSyntax e))

/-- The faults of a file that are not about its syntax. -/
def Fault.BelowSyntax : Fault → Prop
  | .bytes _ | .digits _ | .nesting _ => True
  | _ => False

theorem bySyntax_encode_iff {depth : Nat} {cs : List Char} :
    BySyntax depth (encode cs) ↔
      (∃ v, Json.parse depth (Text.unifyBreaks cs) = .ok v) ∨
        ∃ e, Json.parse depth (Text.unifyBreaks cs) = .error (.badSyntax e) := by
  refine ⟨?_, fun h => ⟨cs, rfl, h⟩⟩
  rintro ⟨cs', h, hread⟩
  rwa [Text.Utf8.encode_inj.mp h]

/-- A text within the limits of the reader has no fault but in its syntax. -/
theorem bySyntax_of_withinLimits {depth : Nat} {cs : List Char}
    (h : Json.WithinLimits depth (Text.unifyBreaks cs)) : BySyntax depth (encode cs) := by
  obtain ⟨hdigits, hdeep⟩ := Json.parse_of_withinLimits h
  rw [bySyntax_encode_iff]
  cases hparse : Json.parse depth (Text.unifyBreaks cs) with
  | ok v => exact .inl ⟨v, rfl⟩
  | error e =>
      cases e with
      | badSyntax e => exact .inr ⟨e, rfl⟩
      | digits e => exact absurd hparse (hdigits e)
      | tooDeep e => exact absurd hparse (hdeep e)

namespace Action

variable {α : Type} {own : Fault → Prop} {w : World} {p : Path} {bs : List UInt8} {x : Bool}
  {document : Document} {unreadable : Json.SyntaxError → Fault} {k : Json → Action α}

/-- How reading a JSON file ends. -/
theorem readJson_cases (document : Document) (unreadable : Json.SyntaxError → Fault)
    (hstat : w.disk.stat p = .ok (.file bs x)) :
    BySyntax (w.host.room.reads document) bs ∧
      (∃ v, readJson document p unreadable w = .ok v w) ∨
    BySyntax (w.host.room.reads document) bs ∧
      (∃ e, readJson document p unreadable w = .error (unreadable e) w) ∨
    ¬ BySyntax (w.host.room.reads document) bs ∧
      ∃ f, f.BelowSyntax ∧ readJson document p unreadable w = .error f w := by
  by_cases hbs : ∃ cs, bs = encode cs
  · obtain ⟨cs, rfl⟩ := hbs
    rw [readJson_of_encode hstat, bySyntax_encode_iff]
    cases hparse : Json.parse (w.host.room.reads document) (Text.unifyBreaks cs) with
    | ok v => exact .inl ⟨.inl ⟨v, rfl⟩, v, rfl⟩
    | error e =>
        cases e with
        | badSyntax e => exact .inr (.inl ⟨.inr ⟨e, rfl⟩, e, rfl⟩)
        | digits e => exact .inr (.inr ⟨by simp, .digits e, trivial, rfl⟩)
        | tooDeep e => exact .inr (.inr ⟨by simp, .nesting e, trivial, rfl⟩)
  · have hne : ∀ cs, bs ≠ encode cs := fun cs h => hbs ⟨cs, h⟩
    obtain ⟨e, he⟩ := readText_of_ne_encode hstat hne
    refine .inr (.inr ⟨?_, .bytes e, trivial, bind_of_error he⟩)
    rintro ⟨cs, h, -⟩
    exact hne cs h

/-- A loader whose own checks fail only by its own error fails by another one exactly if the fault
lies below the syntax. -/
theorem failsOnly_readJson_bind (hstat : w.disk.stat p = .ok (.file bs x))
    (hunreadable : ∀ e, own (unreadable e)) (hown : ∀ f, f.BelowSyntax → ¬ own f)
    (hk : ∀ v, FailsOnly own (k v) w) :
    (FailsOnly own (readJson document p unreadable >>= k) w ↔
      BySyntax (w.host.room.reads document) bs) ∧
      FailsOnly (fun f => own f ∨ f.BelowSyntax) (readJson document p unreadable >>= k) w := by
  obtain ⟨hbs, v, hread⟩ | ⟨hbs, e, hread⟩ | ⟨hbs, f, hf, hread⟩ :=
    readJson_cases document unreadable hstat
  · rw [failsOnly_bind_of_ok hread, failsOnly_bind_of_ok hread]
    exact ⟨iff_of_true (hk v) hbs, fun f w' h => .inl (hk v f w' h)⟩
  · rw [failsOnly_iff_of_error (bind_of_error hread), failsOnly_iff_of_error (bind_of_error hread)]
    exact ⟨iff_of_true (hunreadable e) hbs, .inl (hunreadable e)⟩
  · rw [failsOnly_iff_of_error (bind_of_error hread), failsOnly_iff_of_error (bind_of_error hread)]
    exact ⟨iff_of_false (hown f hf) hbs, .inr hf⟩

theorem ask_exists?_of_stat {e : Entry} (h : w.disk.stat p = .ok e) :
    ask (·.exists? p) w = .ok true w :=
  ask_of_ok (by rw [Disk.exists?, Disk.ask, h])

theorem failsOnly_ofExcept {ε : Type} (toFault : ε → Fault) (r : Except ε α) (w : World) :
    FailsOnly (fun f => ∃ e, f = toFault e) (ofExcept toFault r) w := by
  cases r with
  | ok a => exact failsOnly_of_ok rfl
  | error e => exact (failsOnly_iff_of_error rfl).mpr ⟨e, rfl⟩

end Action

section Loaders

variable {w : World} {bs : List UInt8} {x : Bool}

/-- A manifest file is reported by a manifest error unless its fault lies below the syntax. -/
theorem Manifest.failsOnly_load {dir : Path}
    (hstat : w.disk.stat (dir.child fileName) = .ok (.file bs x)) :
    (Action.FailsOnly (fun f => ∃ e, f = .manifest e) (load dir) w ↔
      BySyntax (w.host.room.reads .manifest) bs) ∧
      Action.FailsOnly (fun f => (∃ e, f = .manifest e) ∨ f.BelowSyntax) (load dir) w := by
  have hthere := Action.ask_exists?_of_stat hstat
  rw [load, Action.failsOnly_bind_of_ok hthere, Action.failsOnly_bind_of_ok hthere]
  refine Action.failsOnly_readJson_bind hstat (fun e => ⟨_, rfl⟩) ?_
    fun v => Action.failsOnly_ofExcept .manifest _ w
  rintro f hf ⟨e, rfl⟩
  exact hf

theorem Settings.failsOnly_load {given : Option Path} {p : Path}
    (hpath : path? given w.env = some p) (hstat : w.disk.stat p = .ok (.file bs x)) :
    (Action.FailsOnly (fun f => ∃ e, f = .settings e) (load given) w ↔
      BySyntax (w.host.room.reads .settings) bs) ∧
      Action.FailsOnly (fun f => (∃ e, f = .settings e) ∨ f.BelowSyntax) (load given) w := by
  have hfile := fileOr_eq_ok_iff.mpr ⟨rfl, hpath⟩
  have hthere := Action.ask_exists?_of_stat hstat
  rw [load, Action.failsOnly_bind_of_ok hfile, Action.failsOnly_bind_of_ok hthere,
    Action.failsOnly_bind_of_ok hfile, Action.failsOnly_bind_of_ok hthere]
  refine Action.failsOnly_readJson_bind hstat (fun e => ⟨_, rfl⟩) ?_ fun v => ?_
  · rintro f hf ⟨e, rfl⟩
    exact hf
  · cases v with
    | obj ms => exact Action.failsOnly_of_ok rfl
    | null | bool | int | float | str | arr =>
        exact (Action.failsOnly_iff_of_error rfl).mpr ⟨_, rfl⟩

/-- **What the loaders report by their own errors.** Whatever bytes the file holds, each loader
gives a result or fails by its own error exactly if the bytes encode a text that is read or refused
for its syntax, with the room that the stack has there; otherwise the fault is one below the syntax,
and no other. A text within the limits of the reader is always of the first kind. -/
theorem loaders_own_faults_iff (bs : List UInt8) (x : Bool) :
    (∀ dir w, w.disk.stat (dir.child Manifest.fileName) = .ok (.file bs x) →
      (Action.FailsOnly (fun f => ∃ e, f = .manifest e) (Manifest.load dir) w ↔
        BySyntax (w.host.room.reads .manifest) bs) ∧
      Action.FailsOnly (fun f => (∃ e, f = .manifest e) ∨ f.BelowSyntax) (Manifest.load dir) w) ∧
    (∀ given p w, Settings.path? given w.env = some p → w.disk.stat p = .ok (.file bs x) →
      (Action.FailsOnly (fun f => ∃ e, f = .settings e) (Settings.load given) w ↔
        BySyntax (w.host.room.reads .settings) bs) ∧
      Action.FailsOnly (fun f => (∃ e, f = .settings e) ∨ f.BelowSyntax) (Settings.load given) w) ∧
    ∀ depth cs, bs = encode cs → Json.WithinLimits depth (Text.unifyBreaks cs) →
      BySyntax depth bs := by
  refine ⟨fun dir w => Manifest.failsOnly_load, fun given p w => Settings.failsOnly_load, ?_⟩
  rintro depth cs rfl
  exact bySyntax_of_withinLimits

end Loaders

/-! ## Samples -/

namespace LoadFaults

/-- A world in which the manifest in `/c` and the settings of the user hold the same bytes, and
files may be nested `depth` deep. -/
def world (depth : Nat) (bs : List UInt8) : World :=
  Settings.Sample.world (.ofDepths depth depth)
    [(["c"], .directory), (["c", "goduino.json"], .file bs false),
      (["c", "godotino"], .directory), (["c", "godotino", "config.json"], .file bs false)]

/-- The directory of the manifest. -/
def dir : Path := ⟨.slash, ["c"]⟩

/-- The name of the fault that stops an action. -/
def faultName? {α : Type} (x : Action α) (w : World) : Option String :=
  match x w with
  | .ok _ _ => none
  | .error f _ => some f.name

/-- Both loaders end in the same fault where their files hold the same bytes. -/
def Escapes (name : String) (depth : Nat) (bs : List UInt8) : Prop :=
  faultName? (Manifest.load dir) (world depth bs) = some name ∧
    faultName? (Settings.load none) (world depth bs) = some name

variable {depth : Nat} {bs : List UInt8}

theorem stat_manifest :
    (world depth bs).disk.stat (dir.child Manifest.fileName) = .ok (.file bs false) := rfl

theorem stat_settings :
    (world depth bs).disk.stat Settings.Sample.file = .ok (.file bs false) := rfl

/-- What stops the reading of a file stops both loaders. -/
theorem escapes_of_readJson {f : Fault}
    (h : ∀ {document p unreadable}, (world depth bs).disk.stat p = .ok (.file bs false) →
      Action.readJson document p unreadable (world depth bs) = .error f (world depth bs)) :
    Escapes f.name depth bs := by
  have hfile : Settings.fileOr none (world depth bs) =
    .ok Settings.Sample.file (world depth bs) :=
      Settings.fileOr_eq_ok_iff.mpr ⟨rfl, Settings.Sample.path?_world _ _⟩
  have hload : Manifest.load dir (world depth bs) = .error f (world depth bs) :=
    (Action.bind_of_ok (Action.ask_exists?_of_stat stat_manifest)).trans
      (Action.bind_of_error (h stat_manifest))
  have hload' : Settings.load none (world depth bs) = .error f (world depth bs) :=
    (Action.bind_of_ok hfile).trans
      ((Action.bind_of_ok (Action.ask_exists?_of_stat stat_settings)).trans
        (Action.bind_of_error (h stat_settings)))
  rw [Escapes, faultName?, faultName?, hload, hload']
  exact ⟨rfl, rfl⟩

theorem escapes_of_bytes (h : (Text.Utf8.decodeStrict bs).isOk = false) :
    Escapes "UnicodeDecodeError" depth bs := by
  cases hbytes : Text.Utf8.decodeStrict bs with
  | ok cs =>
      rw [hbytes] at h
      cases h
  | error e =>
      refine escapes_of_readJson (f := .bytes e) fun hstat => Action.bind_of_error ?_
      have hread := Disk.readFile_eq_ok_iff.mpr ⟨_, hstat⟩
      rw [Action.readText, Action.bind_of_ok (Action.ask_of_ok hread), hbytes]
      rfl

theorem escapes_of_parse {c : Char} {n : Nat} {e : Json.ReadError} {f : Fault} (hc : c ≠ '\r')
    (hparse : Json.parse depth (List.replicate n c) = .error e)
    (hf : ∀ unreadable, Action.readFault unreadable e = f) :
    Escapes f.name depth (encode (List.replicate n c)) := by
  have hbreaks : Text.unifyBreaks (List.replicate n c) = List.replicate n c :=
    Text.unifyBreaks_eq_self fun d hd => List.eq_of_mem_replicate hd ▸ hc
  refine escapes_of_readJson fun {document p unreadable} hstat => ?_
  rw [Action.readJson_of_encode hstat, hbreaks]
  show Action.ofExcept _ (Json.parse depth (List.replicate n c)) _ = _
  rw [hparse, ← hf unreadable]
  rfl

end LoadFaults

open LoadFaults in
/-- An array that is not closed is reported by both loaders. -/
theorem loaders_own_faults_unclosed :
    let w := world 1 (encode "[1, 2".toList)
    Action.FailsOnly (fun f => ∃ e, f = .manifest e) (Manifest.load dir) w ∧
      Action.FailsOnly (fun f => ∃ e, f = .settings e) (Settings.load none) w ∧
      faultName? (Manifest.load dir) w = some "ManifestError" ∧
      faultName? (Settings.load none) w = some "UserConfigError" := by
  intro w
  have hlimits : Json.WithinLimits 1 (Text.unifyBreaks "[1, 2".toList) := by
    refine ⟨fun run hrun _ => Nat.le_trans hrun.length_le ?_, ?_⟩ <;> decide +kernel
  obtain ⟨hmanifest, hsettings, hsyntax⟩ := loaders_own_faults_iff (encode "[1, 2".toList) false
  have hbs := hsyntax 1 _ rfl hlimits
  refine ⟨(hmanifest dir w rfl).1.mpr hbs, (hsettings none Settings.Sample.file w ?_ rfl).1.mpr hbs,
    ?_, ?_⟩ <;> decide +kernel

open LoadFaults in
/-- Bytes that encode no text, a number of 4301 digits and one opening bracket more than the stack
has room for go through both loaders as other faults, however much room that is. -/
theorem loaders_foreign_faults :
    (∀ depth, Escapes "UnicodeDecodeError" depth [0xff]) ∧
      (∀ depth, Escapes "ValueError" depth
        (encode (List.replicate (Text.maxDigits + 1) '1'))) ∧
      ∀ depth, Escapes "RecursionError" depth (encode (List.replicate (depth + 1) '[')) := by
  have hlong : ∀ depth, Json.parse depth (List.replicate (Text.maxDigits + 1) '1') =
      .error (.digits ⟨Text.maxDigits + 1⟩) := by
    intro depth
    rw [List.replicate_succ, Json.parse_replicate_digit (Nat.le_refl _)]
  refine ⟨fun depth => escapes_of_bytes (by decide +kernel), fun depth => ?_, fun depth => ?_⟩
  · exact escapes_of_parse (by decide) (hlong depth) fun _ => rfl
  · exact escapes_of_parse (by decide) (Json.parse_replicate_bracket depth) fun _ => rfl

end SketchBuild
