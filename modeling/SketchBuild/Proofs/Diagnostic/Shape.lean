import SketchBuild.Proofs.Diagnostic.Grammar

/-!
# The shape of a traceback

Frames are made in several places: for a location of the translator, for an error line of the
compiler, for all relevant lines of the uploader at once, and for a text in which a tool named no
place. What the tools do not agree on is kept out of the frames: whichever tool it was and wherever
a frame was made, it is `Shaped`.
-/

namespace SketchBuild.Diagnostic

/-- A frame carries the label of its stage and points at exactly the lines of code that have its own
number. Only the translator quotes the code, so a frame of another tool has one line. The origin
stands in where the translator names no file. -/
structure Frame.Shaped (stage : Stage) (origin : Option String) (f : Frame) : Prop where
  label : f.label = stage.label
  pointer : ∀ c ∈ f.code, c.pointer = true ↔ c.number = f.line
  single : stage ≠ .translate → ∃ c, f.code = [c]
  file : stage = .translate → origin.getD "" ≠ "" → f.file ≠ ""

/-- A frame with one line of code, at its own number. -/
theorem Frame.shaped_single (stage : Stage) {origin : Option String} {file : String}
    (h : stage = .translate → origin.getD "" ≠ "" → file ≠ "") (text : String) (line : Int) :
    Frame.Shaped stage origin ⟨file, line, stage.label, [⟨line, text, true⟩]⟩ where
  label := rfl
  pointer := by
    rintro c (_ | ⟨_, ⟨⟩⟩)
    exact iff_of_true rfl rfl
  single _ := ⟨_, rfl⟩
  file := h

/-! ## The translator -/

theorem Translator.IsFrame.shaped {origin : Option String} {s : Section} {f : Frame}
    (h : IsFrame origin s f) : f.Shaped .translate origin := by
  obtain ⟨file, line, -, hfile, hline, hlabel, hcode⟩ := h
  refine ⟨hlabel, fun c hc => ?_, fun hne => absurd rfl hne, fun _ horigin => ?_⟩
  · -- each line of code comes from a context line, which points if it has the frame's number
    obtain ⟨p, -, hp⟩ : ∃ p ∈ s.body.filterMap Line.code?, IsCodeLine line p c := by
      obtain ⟨i, hi, rfl⟩ := List.getElem_of_mem hc
      exact ⟨_, List.getElem_mem (hcode.length_eq ▸ hi), hcode.get _ hi⟩
    rw [hline]
    exact hp.2.2.2
  · rw [hfile]
    split
    · exact horigin
    · next hne => simpa using hne

theorem Translator.shaped_of_reads {origin : Option String} {raw : List Char} {t : Traceback}
    (h : Reads origin raw t) : ∀ f ∈ t.frames, f.Shaped .translate origin := by
  cases h with
  | located _ _ _ hall =>
      intro f hf
      obtain ⟨i, hi, rfl⟩ := List.getElem_of_mem hf
      exact (hall.get (hall.length_eq ▸ hi) hi).shaped
  | unlocated _ _ hframes =>
      intro f hf
      rw [hframes, List.mem_singleton] at hf
      subst hf
      exact Frame.shaped_single .translate (fun _ horigin => horigin) _ 0

/-! ## The other tools -/

theorem Compiler.shaped_frame (origin : Option String) (location message : List Char) :
    (frame location message).Shaped .compile origin :=
  Frame.shaped_single .compile nofun _ _

theorem Compiler.shaped_read (origin : Option String) (raw : List Char) :
    ∀ f ∈ (read origin raw).frames, f.Shaped .compile origin := by
  intro f hf
  rw [read] at hf
  split at hf
  · obtain rfl := List.mem_singleton.mp hf
    exact Frame.shaped_single .compile nofun _ 0
  · rcases List.mem_cons.mp hf with rfl | hf
    · exact shaped_frame origin _ _
    · obtain ⟨⟨location, message⟩, -, rfl⟩ := List.mem_map.mp hf
      exact shaped_frame origin _ _

theorem Uploader.exists_frame_read (origin : Option String) (raw : List Char) :
    ∃ f, (read origin raw).frames = [f] ∧ f.Shaped .upload origin := by
  rw [read]
  split <;> exact ⟨_, rfl, Frame.shaped_single .upload nofun _ 0⟩

/-! ## Every tool -/

/-- **All tracebacks have one shape.** Whatever a tool wrote, each frame of what is read is shaped
as its stage asks, and there is one frame for the uploader. -/
theorem normalize_shaped {stage : Stage} {origin : Option String} {raw : String} {t : Traceback}
    (h : normalize stage origin raw = .ok t) :
    (∀ f ∈ t.frames, f.Shaped stage origin) ∧ (stage = .upload → t.frames.length = 1) := by
  cases stage with
  | translate => exact ⟨Translator.shaped_of_reads (Translator.reads_of_read h), nofun⟩
  | compile =>
      cases h
      exact ⟨Compiler.shaped_read origin raw.toList, nofun⟩
  | upload =>
      cases h
      obtain ⟨f, hf, hshaped⟩ := Uploader.exists_frame_read origin raw.toList
      rw [hf]
      refine ⟨fun g hg => ?_, fun _ => rfl⟩
      obtain rfl := List.mem_singleton.mp hg
      exact hshaped

/-- A location without a file is put at the origin, and its line 0 is pointed at like any other. -/
theorem normalize_shaped_sample :
    ∃ t f, normalize .translate (some "lamp.go") "error: no\n-->\n0 | x\n1 | y" = .ok t ∧
      t.frames = [f] ∧ f.Shaped .translate (some "lamp.go") ∧
      f.code.map (fun c => (c.number, c.pointer)) = [(0, true), (1, false)] := by
  let f : Frame := ⟨"lamp.go", 0, "transpile", [⟨0, "x", true⟩, ⟨1, "y", false⟩]⟩
  have ht : normalize .translate (some "lamp.go") "error: no\n-->\n0 | x\n1 | y" =
      .ok ⟨"error", "no", [f], List.cons_ne_nil _ _⟩ := by
    decide +kernel
  exact ⟨_, f, ht, rfl, (normalize_shaped ht).1 f List.mem_cons_self, rfl⟩

end SketchBuild.Diagnostic
