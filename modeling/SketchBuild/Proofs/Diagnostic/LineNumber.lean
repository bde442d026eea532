import SketchBuild.Proofs.Diagnostic.Grammar
import SketchBuild.Proofs.Numeral

/-!
# Line numbers

Lines are counted from 1, and 0 stands for a line that is not known. The translator's numbers are
runs of digits, so they never fall below 0. The compiler's are read by `Text.readInt?`, which takes
signs and underscores too: a location such as `a:-5` gets a line, where its number is malformed.
`normalize_counted_iff` says that these spellings are all that goes wrong.
-/

namespace SketchBuild.Diagnostic

open Text (trim maxDigits digitsValue IsNumber IsMarkedNumber readInt?)

/-- The numbers in a frame are counted from 1, or 0. -/
def Frame.Counted (f : Frame) : Prop := 0 ≤ f.line ∧ ∀ c ∈ f.code, 0 ≤ c.number

theorem Frame.counted_single {file label text : String} {line : Int} {pointer : Bool} :
    Frame.Counted ⟨file, line, label, [⟨line, text, pointer⟩]⟩ ↔ 0 ≤ line := by
  simp [Frame.Counted]

/-! ## The translator -/

theorem Translator.IsFrame.counted {origin : Option String} {s : Section} {f : Frame}
    (h : IsFrame origin s f) : f.Counted := by
  obtain ⟨file, line, -, -, hline, -, hcode⟩ := h
  refine ⟨hline ▸ Int.natCast_nonneg line, fun c hc => ?_⟩
  obtain ⟨i, hi, rfl⟩ := List.getElem_of_mem hc
  obtain ⟨-, hnumber, -⟩ := hcode.get (hcode.length_eq ▸ hi) hi
  exact hnumber ▸ Int.natCast_nonneg _

theorem Translator.counted_of_reads {origin : Option String} {raw : List Char} {t : Traceback}
    (h : Reads origin raw t) : ∀ f ∈ t.frames, f.Counted := by
  cases h with
  | located _ _ _ hall =>
      intro f hf
      obtain ⟨i, hi, rfl⟩ := List.getElem_of_mem hf
      exact (hall.get (hall.length_eq ▸ hi) hi).counted
  | unlocated _ _ hframes =>
      intro f hf
      rw [hframes, List.mem_singleton] at hf
      exact hf ▸ Frame.counted_single.mpr (Int.le_refl 0)

/-! ## The compiler -/

namespace Compiler

/-- Whether a text starts with a drive letter, a colon and a slash. -/
def hasDrive : List Char → Bool
  | d :: ':' :: c :: _ => Text.isLetter d && (c == '\\' || c == '/')
  | _ => false

/-- The second field of a location. A colon behind a drive letter separates nothing. -/
def lineField? (location : List Char) : Option (List Char) :=
  (location.splitOn ':')[if hasDrive location then 2 else 1]?

/-- A drive is told by the first two fields. -/
theorem hasDrive_iff {location : List Char} :
    hasDrive location = true ↔ ∃ d c path rest, location.splitOn ':' = [d] :: (c :: path) :: rest ∧
      (Text.isLetter d && (c == '\\' || c == '/')) = true := by
  constructor
  · intro h
    rw [hasDrive.eq_def] at h
    split at h
    · next d c path =>
        have hd : d ≠ ':' := by
          rintro rfl
          exact absurd h (by simp [show Text.isLetter ':' = false by decide])
        have hc : c ≠ ':' := by
          rintro rfl
          exact absurd h (by simp)
        obtain ⟨f, fs, hfs⟩ := List.exists_cons_of_ne_nil (List.splitOn_ne_nil ':' path)
        refine ⟨d, c, f, fs, ?_, h⟩
        have hsplit := List.splitOn_append_cons_self_of_not_mem
          (show ':' ∉ [d] by simpa using hd.symm) (c :: path)
        rw [Text.splitOn_cons_of_ne hc, hfs] at hsplit
        exact hsplit
    · cases h
  · rintro ⟨d, c, path, rest, hfields, h⟩
    have hlocation : location = [':'].intercalate ([d] :: (c :: path) :: rest) := by
      rw [← hfields, List.intercalate_splitOn]
    rw [hlocation, List.intercalate_cons_cons]
    cases rest with
    | nil => exact h
    | cons f fs => exact h

/-- The line of a location is the number in its field. -/
theorem splitLocation_line (location : List Char) :
    (splitLocation location).2 =
      ((lineField? location).bind fun f => readInt? (trim f)).getD 0 := by
  rw [splitLocation, lineField?, Text.fields_eq_splitOn]
  by_cases hdrive : hasDrive location = true
  · obtain ⟨d, c, path, rest, hfields, h⟩ := hasDrive_iff.mp hdrive
    rw [if_pos hdrive, hfields, joinDrive, if_pos h]
    cases rest <;> rfl
  · -- the fields stay as they are
    have hjoin : joinDrive (location.splitOn ':') = location.splitOn ':' := by
      rw [joinDrive.eq_def]
      split
      · next d c path rest hfields =>
          rw [if_neg fun h => hdrive (hasDrive_iff.mpr ⟨d, c, path, rest, hfields, h⟩), hfields]
      · rfl
    rw [if_neg hdrive, hjoin]
    split <;> simp_all

theorem line_frame (location message : List Char) :
    (frame location message).line =
      ((lineField? location).bind fun f => readInt? (trim f)).getD 0 :=
  splitLocation_line location

/-- The frames are those of the error lines, unless there is none. -/
theorem frames_read (origin : Option String) (raw : List Char) :
    (errorLines raw = [] ∧ ∃ f, (read origin raw).frames = [f] ∧ f.line = 0 ∧ f.Counted) ∨
      (read origin raw).frames = (errorLines raw).map fun e => frame e.1 e.2 := by
  rw [read]
  split
  · next h => exact .inl ⟨h, _, rfl, rfl, Frame.counted_single.mpr (Int.le_refl 0)⟩
  · next h =>
      rw [h]
      exact .inr rfl

/-- A frame with a line belongs to an error line that writes the number in digits alone. -/
def PlainlyNumbered (raw : List Char) (t : Traceback) : Prop :=
  ∀ (i : Nat) f, t.frames[i]? = some f → f.line ≠ 0 →
    ∃ e field, (errorLines raw)[i]? = some e ∧ lineField? e.1 = some field ∧ IsNumber (trim field)

/-- No error line writes its number with a sign or underscores. -/
def Unmarked (raw : List Char) : Prop :=
  ∀ e ∈ errorLines raw, ∀ field, lineField? e.1 = some field → ¬ IsMarkedNumber (trim field)

/-- A line other than 0 is a number that was read in the location's field. -/
theorem exists_lineField_of_line_ne_zero {location message : List Char}
    (h : (frame location message).line ≠ 0) :
    ∃ field, lineField? location = some field ∧
      readInt? (trim field) = some (frame location message).line := by
  rw [line_frame] at h ⊢
  cases hfield : lineField? location with
  | none => exact absurd (by rw [hfield]; rfl) h
  | some field =>
      rw [hfield] at h
      refine ⟨field, rfl, ?_⟩
      rw [Option.bind_some] at h ⊢
      cases hread : readInt? (trim field) with
      | none => exact absurd (by rw [hread]; rfl) h
      | some n => rfl

/-- Digits alone are the line. -/
theorem line_frame_of_isNumber {location field : List Char} (message : List Char)
    (hfield : lineField? location = some field) (h : IsNumber (trim field))
    (hlen : (trim field).length ≤ maxDigits) :
    (frame location message).line = digitsValue (trim field) := by
  rw [line_frame, hfield, Option.bind_some, Text.readInt?_of_isNumber h hlen]
  rfl

theorem counted_frame_of_unmarked {location message : List Char}
    (h : ∀ field, lineField? location = some field → ¬ IsMarkedNumber (trim field)) :
    (frame location message).Counted := by
  have hnonneg : 0 ≤ (frame location message).line := by
    by_cases hline : (frame location message).line = 0
    · exact Int.le_of_eq hline.symm
    · obtain ⟨field, hfield, hread⟩ := exists_lineField_of_line_ne_zero hline
      rcases Text.readInt?_ne_zero_cases hread hline with hmarked | ⟨-, hvalue⟩
      · exact absurd hmarked (h field hfield)
      · exact hvalue ▸ Int.natCast_nonneg _
  exact Frame.counted_single.mpr hnonneg

theorem counted_read_of_unmarked (origin : Option String) {raw : List Char} (h : Unmarked raw) :
    ∀ f ∈ (read origin raw).frames, f.Counted := by
  intro f hf
  rcases frames_read origin raw with ⟨-, g, hframes, -, hcounted⟩ | hframes
  · rw [hframes, List.mem_singleton] at hf
    exact hf ▸ hcounted
  · rw [hframes] at hf
    obtain ⟨e, he, rfl⟩ := List.mem_map.mp hf
    exact counted_frame_of_unmarked (h e he)

theorem plainlyNumbered_read_of_unmarked (origin : Option String) {raw : List Char}
    (h : Unmarked raw) : PlainlyNumbered raw (read origin raw) := by
  intro i f hf hline
  rcases frames_read origin raw with ⟨-, g, hframes, hzero, -⟩ | hframes
  · rw [hframes] at hf
    obtain rfl : g = f := List.mem_singleton.mp (List.mem_of_getElem? hf) |>.symm
    exact absurd hzero hline
  · rw [hframes, List.getElem?_map] at hf
    obtain ⟨e, he, rfl⟩ := Option.map_eq_some_iff.mp hf
    obtain ⟨field, hfield, hread⟩ := exists_lineField_of_line_ne_zero hline
    rcases Text.readInt?_ne_zero_cases hread hline with hmarked | ⟨hnumber, -⟩
    · exact absurd hmarked (h e (List.mem_of_getElem? he) field hfield)
    · exact ⟨e, field, he, hfield, hnumber⟩

/-- A marked number gives a line, though it is not digits alone. -/
theorem unmarked_of_plainlyNumbered (origin : Option String) {raw : List Char}
    (h : PlainlyNumbered raw (read origin raw)) : Unmarked raw := by
  intro e he field hfield hmarked
  rcases frames_read origin raw with ⟨hnil, -⟩ | hframes
  · rw [hnil] at he
    cases he
  · obtain ⟨i, hi⟩ := List.mem_iff_getElem?.mp he
    obtain ⟨n, hread, hn⟩ := hmarked.readInt?
    have hline : (frame e.1 e.2).line = n := by
      rw [line_frame, hfield, Option.bind_some, hread]
      rfl
    obtain ⟨e', field', he', hfield', hnumber⟩ :=
      h i (frame e.1 e.2) (by rw [hframes, List.getElem?_map, hi]; rfl) (hline ▸ hn)
    obtain rfl : e = e' := Option.some.inj (hi.symm.trans he')
    obtain rfl : field = field' := Option.some.inj (hfield.symm.trans hfield')
    exact hmarked.not_isNumber hnumber

end Compiler

/-! ## Every tool -/

/-- The uploader names no lines. -/
theorem Uploader.counted_read (origin : Option String) (raw : List Char) :
    ∀ f ∈ (read origin raw).frames, f.Counted := by
  intro f hf
  rw [read] at hf
  split at hf <;>
    exact List.mem_singleton.mp hf ▸ Frame.counted_single.mpr (Int.le_refl 0)

/-- **Lines are counted from 1 or unknown, and the compiler's are digits alone, exactly if no error
line of the compiler has a marked number.** The digits of a plain field are the line. -/
theorem normalize_counted_iff {stage : Stage} {origin : Option String} {raw : String}
    {t : Traceback} (h : normalize stage origin raw = .ok t) :
    ((∀ f ∈ t.frames, f.Counted) ∧ (stage = .compile → Compiler.PlainlyNumbered raw.toList t) ↔
      (stage = .compile → Compiler.Unmarked raw.toList)) ∧
    (stage = .compile → ∀ (i : Nat) e field, (Compiler.errorLines raw.toList)[i]? = some e →
      Compiler.lineField? e.1 = some field → IsNumber (trim field) →
      (trim field).length ≤ maxDigits →
      ∃ f, t.frames[i]? = some f ∧ f.line = digitsValue (trim field)) := by
  cases stage with
  | translate =>
      have hcounted := Translator.counted_of_reads (Translator.reads_of_read h)
      exact ⟨iff_of_true ⟨hcounted, nofun⟩ nofun, nofun⟩
  | upload =>
      cases h
      exact ⟨iff_of_true ⟨Uploader.counted_read origin raw.toList, nofun⟩ nofun, nofun⟩
  | compile =>
      cases h
      refine ⟨⟨fun hplain _ => ?_, fun hunmarked => ?_⟩,
        fun _ i e field he hfield hnumber hlen => ?_⟩
      · exact Compiler.unmarked_of_plainlyNumbered origin (hplain.2 rfl)
      · exact ⟨Compiler.counted_read_of_unmarked origin (hunmarked rfl),
          fun _ => Compiler.plainlyNumbered_read_of_unmarked origin (hunmarked rfl)⟩
      · refine ⟨Compiler.frame e.1 e.2, ?_,
          Compiler.line_frame_of_isNumber e.2 hfield hnumber hlen⟩
        rcases Compiler.frames_read origin raw.toList with ⟨hnil, -⟩ | hframes
        · rw [hnil] at he
          cases he
        · rw [hframes, List.getElem?_map, he]
          rfl

/-- A drive letter is passed over, and blanks around the number are not part of it. -/
theorem normalize_counted_drive :
    ∃ t, normalize .compile none "C:\\b.ino: 12 :3: error: y" = .ok t ∧
      (∀ f ∈ t.frames, f.Counted) ∧
      Compiler.PlainlyNumbered "C:\\b.ino: 12 :3: error: y".toList t ∧
      ∃ f, t.frames[0]? = some f ∧ f.line = 12 := by
  have hlines : Compiler.errorLines "C:\\b.ino: 12 :3: error: y".toList =
      [("C:\\b.ino: 12 :3".toList, ['y'])] := by
    decide +kernel
  have hfield : Compiler.lineField? "C:\\b.ino: 12 :3".toList = some [' ', '1', '2', ' '] := by
    decide +kernel
  have hnumber : IsNumber (trim [' ', '1', '2', ' ']) :=
    ⟨by decide, List.all_eq_true.mp rfl⟩
  have hunmarked : Compiler.Unmarked "C:\\b.ino: 12 :3: error: y".toList := by
    intro e he field hf hmarked
    rw [hlines, List.mem_singleton] at he
    subst he
    obtain rfl : [' ', '1', '2', ' '] = field := Option.some.inj (hfield.symm.trans hf)
    exact hmarked.not_isNumber hnumber
  have ht : normalize .compile none "C:\\b.ino: 12 :3: error: y" =
      .ok (Compiler.read none "C:\\b.ino: 12 :3: error: y".toList) := rfl
  obtain ⟨hiff, hplain⟩ := normalize_counted_iff ht
  obtain ⟨hcounted, hnumbered⟩ := hiff.mpr fun _ => hunmarked
  refine ⟨_, ht, hcounted, hnumbered rfl, ?_⟩
  exact hplain rfl 0 _ _ (by rw [hlines]; rfl) hfield hnumber (by decide)

/-- A signed number gives a line below 0, and underscores a line of their own. -/
theorem normalize_marked_numbers :
    ∃ t, normalize .compile none "a:-5: error: x\nb:1_0: error: y" = .ok t ∧
      t.frames.map (fun f => (f.file, f.line)) = [("a", -5), ("b", 10)] ∧
      ¬ (∀ f ∈ t.frames, f.Counted) := by
  have hframes : (Compiler.read none "a:-5: error: x\nb:1_0: error: y".toList).frames =
      [⟨"a", -5, "compile", [⟨-5, "x", true⟩]⟩, ⟨"b", 10, "compile", [⟨10, "y", true⟩]⟩] := by
    decide +kernel
  refine ⟨_, rfl, by rw [hframes]; rfl, fun hcounted => ?_⟩
  rw [hframes] at hcounted
  exact absurd (hcounted _ List.mem_cons_self).1 (by decide)

end SketchBuild.Diagnostic
