import SketchBuild.Proofs.Action
import SketchBuild.Proofs.Disk.Change
import SketchBuild.Proofs.Text.Utf8

/-!
# Reading files

What `readText` and `readJson` give is told by what the file holds: the encoding of a text, or bytes
that encode none. In both cases the world stays as it is.
-/

namespace SketchBuild

namespace Text

/-- A text without carriage returns has nothing to unify. -/
theorem unifyBreaks_eq_self {cs : List Char} (h : ∀ c ∈ cs, c ≠ '\r') : unifyBreaks cs = cs := by
  induction cs with
  | nil => rfl
  | cons c cs ih =>
      obtain ⟨hc, hcs⟩ := List.forall_mem_cons.mp h
      rw [unifyBreaks, if_neg hc, ih hcs]
      rintro rest rfl
      exact absurd rfl hc

end Text

namespace Action

open Text.Utf8 (encode)

variable {w : World} {p : Path} {cs : List Char} {x : Bool}

theorem readText_of_encode (h : w.disk.stat p = .ok (.file (encode cs) x)) :
    readText p w = .ok (Text.unifyBreaks cs) w := by
  rw [readText, bind_of_ok (ask_of_ok (Disk.readFile_eq_ok_iff.mpr ⟨x, h⟩)),
    Text.Utf8.decodeStrict_eq_ok_iff.mpr rfl]
  rfl

/-- Bytes that encode no text are a fault of their own. -/
theorem readText_of_ne_encode {bs : List UInt8} (h : w.disk.stat p = .ok (.file bs x))
    (hbs : ∀ cs, bs ≠ encode cs) : ∃ e, readText p w = .error (.bytes e) w := by
  cases hd : Text.Utf8.decodeStrict bs with
  | ok cs => exact absurd (Text.Utf8.decodeStrict_eq_ok_iff.mp hd) (hbs cs)
  | error e =>
      refine ⟨e, ?_⟩
      rw [readText, bind_of_ok (ask_of_ok (Disk.readFile_eq_ok_iff.mpr ⟨x, h⟩)), hd]
      rfl

theorem readText_eq_ok_iff {w' : World} {text : List Char} :
    readText p w = .ok text w' ↔
      w' = w ∧ ∃ cs x, w.disk.stat p = .ok (.file (encode cs) x) ∧ text = Text.unifyBreaks cs := by
  constructor
  · intro h
    obtain ⟨bs, w₁, hask, hdecode⟩ := bind_eq_ok_iff.mp h
    obtain ⟨hread, rfl⟩ := ask_eq_ok_iff.mp hask
    obtain ⟨x, hstat⟩ := Disk.readFile_eq_ok_iff.mp hread
    cases hd : Text.Utf8.decodeStrict bs with
    | error e =>
        rw [hd] at hdecode
        cases hdecode
    | ok cs =>
        rw [hd] at hdecode
        cases hdecode
        rw [Text.Utf8.decodeStrict_eq_ok_iff.mp hd] at hstat
        exact ⟨rfl, cs, x, hstat, rfl⟩
  · rintro ⟨rfl, cs, x, hstat, rfl⟩
    exact readText_of_encode hstat

variable {document : Document} {unreadable : Json.SyntaxError → Fault} {v : Json}

/-- The fault of a text that is not read as JSON. -/
def readFault (unreadable : Json.SyntaxError → Fault) : Json.ReadError → Fault
  | .badSyntax e => unreadable e
  | .digits e => .digits e
  | .tooDeep e => .nesting e

theorem readJson_of_encode (h : w.disk.stat p = .ok (.file (encode cs) x)) :
    readJson document p unreadable w =
      ofExcept (readFault unreadable)
        (Json.parse (w.host.room.reads document) (Text.unifyBreaks cs)) w := by
  rw [readJson, bind_of_ok (readText_of_encode h), bind_of_ok (rfl : world w = .ok w w)]
  cases Json.parse (w.host.room.reads document) (Text.unifyBreaks cs) with
  | ok v => rfl
  | error e => cases e <;> rfl

theorem readJson_eq_ok_iff {w' : World} :
    readJson document p unreadable w = .ok v w' ↔
      w' = w ∧ ∃ cs x, w.disk.stat p = .ok (.file (encode cs) x) ∧
        Json.parse (w.host.room.reads document) (Text.unifyBreaks cs) = .ok v := by
  constructor
  · intro h
    obtain ⟨text, w₁, hread, -⟩ := bind_eq_ok_iff.mp h
    obtain ⟨-, cs, x, hstat, -⟩ := readText_eq_ok_iff.mp hread
    rw [readJson_of_encode hstat] at h
    cases hparse : Json.parse (w.host.room.reads document) (Text.unifyBreaks cs) with
    | ok u =>
        rw [hparse] at h
        cases h
        exact ⟨rfl, cs, x, hstat, hparse⟩
    | error e =>
        rw [hparse] at h
        cases h
  · rintro ⟨rfl, cs, x, hstat, hparse⟩
    rw [readJson_of_encode hstat, hparse]
    rfl

/-! ## What only reads -/

section Reads

variable {α β : Type} {r : Action α}

/-- What the action gives depends on the disk and the host only. -/
def Reads (r : Action α) : Prop :=
  ∀ w w' a v, w'.disk = w.disk → w'.host = w.host → r w = .ok a v → v = w ∧ r w' = .ok a w'

theorem Reads.pure (a : α) : Reads (pure a) := by
  rintro w w' a v - - h
  cases h
  exact ⟨rfl, rfl⟩

theorem Reads.throw (f : Fault) : Reads (throw f : Action α) := by
  rintro w w' a v - - h
  cases h

theorem Reads.ofExcept {ε : Type} (toFault : ε → Fault) (e : Except ε α) :
    Reads (ofExcept toFault e) := by
  cases e with
  | ok a => exact .pure a
  | error e => exact .throw _

theorem Reads.ask (question : Disk → Except FileError α) : Reads (ask question) := by
  intro w w' a v hdisk _ h
  obtain ⟨hq, rfl⟩ := ask_eq_ok_iff.mp h
  exact ⟨rfl, ask_of_ok (hdisk ▸ hq)⟩

theorem Reads.readJson (document : Document) (p : Path)
    (unreadable : Json.SyntaxError → Fault) : Reads (readJson document p unreadable) := by
  intro w w' a v hdisk hhost h
  obtain ⟨rfl, cs, x, hstat, hparse⟩ := readJson_eq_ok_iff.mp h
  rw [← hdisk] at hstat
  rw [← hhost] at hparse
  exact ⟨rfl, readJson_eq_ok_iff.mpr ⟨rfl, cs, x, hstat, hparse⟩⟩

theorem Reads.bind {f : α → Action β} (hr : Reads r) (hf : ∀ a, Reads (f a)) :
    Reads (r >>= f) := by
  intro w w' b v hdisk hhost h
  obtain ⟨a, w₁, hrun, hrest⟩ := bind_eq_ok_iff.mp h
  obtain ⟨rfl, hrun'⟩ := hr w w' a w₁ hdisk hhost hrun
  obtain ⟨rfl, hrest'⟩ := hf a _ w' b v hdisk hhost hrest
  exact ⟨rfl, (bind_of_ok hrun').trans hrest'⟩

end Reads

end Action

end SketchBuild
