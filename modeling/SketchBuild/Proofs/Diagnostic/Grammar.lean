import Mathlib.Data.List.Forall2
import SketchBuild.Proofs.Diagnostic.Blocks
import SketchBuild.Proofs.Text

/-!
# The grammar of the translator's output

Reading the translator's output is described here without saying how it is read. `IsLine` says of
one line what it is, `IsCut` cuts the lines of a text at the arrow lines, and `Reads` says which
traceback a text stands for. Reading is exactly this relation:

    Line.read_eq_iff : Line.read cs = l ↔ IsLine cs l
    normalize_translate_iff : normalize .translate origin raw = .ok t ↔ Reads origin raw.toList t

So every text has at most one traceback, and it has none only if a number is too long to be read.
-/

namespace SketchBuild.Diagnostic.Translator

open Text (isBlank isDigit trim maxDigits digitsValue IsFirstCut)

/-! ## What a line is -/

/-- `error`, then neither blanks nor colons up to a colon. The tag is what stands before it. -/
def IsHeader (cs tag message : List Char) : Prop :=
  ∃ rest, tag = "error".toList ++ rest ∧ cs = tag ++ ':' :: message ∧
    ∀ c ∈ rest, isBlank c = false ∧ c ≠ ':'

/-- Blanks or none, digits, at least one blank, a bar. One space after the bar is not part of the
text. -/
def IsNumbered (cs number text : List Char) : Prop :=
  ∃ pad gap rest, cs = pad ++ number ++ gap ++ '|' :: rest ∧ (∀ c ∈ pad, isBlank c = true) ∧
    (number ≠ [] ∧ ∀ c ∈ number, isDigit c = true) ∧ (gap ≠ [] ∧ ∀ c ∈ gap, isBlank c = true) ∧
    text = if rest.head? = some ' ' then rest.tail else rest

/-- The classes of lines, each tried only where those before it fail. -/
inductive IsLine (cs : List Char) : Line → Prop
  | header {tag message} : IsHeader cs tag message → IsLine cs (.header tag (trim message))
  | arrow {before after} : (∀ tag message, ¬ IsHeader cs tag message) →
      IsFirstCut "-->".toList cs before after →
      IsLine cs (.arrow (trim ((trim after).dropWhile (· == '·'))))
  | context {number text} : (∀ tag message, ¬ IsHeader cs tag message) → ¬ "-->".toList <:+: cs →
      IsNumbered cs number text → IsLine cs (.context number text)
  | noise : (∀ tag message, ¬ IsHeader cs tag message) → ¬ "-->".toList <:+: cs →
      (∀ number text, ¬ IsNumbered cs number text) → IsLine cs .noise

theorem header?_eq_some_iff {cs tag message : List Char} :
    header? cs = some (tag, message) ↔ ∃ m, IsHeader cs tag m ∧ message = trim m := by
  constructor
  · intro h
    rw [header?] at h
    split at h
    · next hp =>
        obtain ⟨rest, rfl⟩ := List.isPrefixOf_iff_prefix.mp hp
        rw [List.drop_left] at h
        dsimp only at h
        split at h
        · next m hm =>
            cases h
            refine ⟨m, ⟨_, rfl, ?_, fun c hc => ?_⟩, rfl⟩
            · rw [List.append_assoc, ← hm, List.takeWhile_append_dropWhile]
            · simpa using List.mem_takeWhile_imp hc
        · cases h
    · cases h
  · rintro ⟨m, ⟨rest, rfl, rfl, hrest⟩, rfl⟩
    have hp : "error".toList.isPrefixOf ("error".toList ++ rest ++ ':' :: m) = true := by
      rw [List.isPrefixOf_iff_prefix, List.append_assoc]
      exact List.prefix_append _ _
    have hin : ∀ c ∈ rest, (!isBlank c && c != ':') = true := by
      intro c hc
      simp [hrest c hc]
    rw [header?, if_pos hp, List.append_assoc, List.drop_left]
    dsimp only
    rw [List.dropWhile_append_of_pos hin, List.takeWhile_append_of_pos hin,
      List.dropWhile_cons_of_neg (by simp), List.takeWhile_cons_of_neg (by simp), List.append_nil]
    rfl

theorem header?_eq_none_iff {cs : List Char} :
    header? cs = none ↔ ∀ tag message, ¬ IsHeader cs tag message := by
  rw [Option.eq_none_iff_forall_ne_some]
  constructor
  · intro h tag m hm
    exact h (tag, trim m) (header?_eq_some_iff.mpr ⟨m, hm, rfl⟩)
  · rintro h ⟨tag, message⟩ heq
    obtain ⟨m, hm, -⟩ := header?_eq_some_iff.mp heq
    exact h tag m hm

theorem arrow?_eq_some_iff {cs location : List Char} :
    arrow? cs = some location ↔ ∃ before after, IsFirstCut "-->".toList cs before after ∧
      location = trim ((trim after).dropWhile (· == '·')) := by
  rw [arrow?, Option.map_eq_some_iff]
  constructor
  · rintro ⟨⟨before, after⟩, hcut, rfl⟩
    exact ⟨before, after, Text.cut?_eq_some_iff.mp hcut, rfl⟩
  · rintro ⟨before, after, hcut, rfl⟩
    exact ⟨(before, after), Text.cut?_eq_some_iff.mpr hcut, rfl⟩

theorem arrow?_eq_none_iff {cs : List Char} : arrow? cs = none ↔ ¬ "-->".toList <:+: cs := by
  rw [arrow?, Option.map_eq_none_iff, Text.cut?_eq_none_iff]

theorem isNumbered_of_context? {cs number text : List Char}
    (h : context? cs = some (number, text)) : IsNumbered cs number text := by
  rw [context?] at h
  split at h
  · next gap rest hrest =>
      split at h
      · next hcond =>
          obtain ⟨hne, hgap⟩ := Bool.and_eq_true_iff.mp hcond
          -- the parts of the line, from the left
          have hcs : cs = cs.takeWhile isBlank ++
              ((cs.dropWhile isBlank).takeWhile isDigit ++
                (gap :: rest.takeWhile isBlank ++ rest.dropWhile isBlank)) := by
            rw [List.cons_append, List.takeWhile_append_dropWhile, ← hrest,
              List.takeWhile_append_dropWhile, List.takeWhile_append_dropWhile]
          have hblank : ∀ c ∈ gap :: rest.takeWhile isBlank, isBlank c = true := by
            intro c hc
            rcases List.mem_cons.mp hc with rfl | hc
            · exact hgap
            · exact List.mem_takeWhile_imp hc
          have hparts : ∀ code, rest.dropWhile isBlank = '|' :: code →
              IsNumbered cs ((cs.dropWhile isBlank).takeWhile isDigit)
                (if code.head? = some ' ' then code.tail else code) := by
            intro code hcode
            rw [hcode] at hcs
            exact ⟨_, _, code, by simpa using hcs, fun c hc => List.mem_takeWhile_imp hc,
              ⟨by simpa using hne, fun c hc => List.mem_takeWhile_imp hc⟩,
              ⟨List.cons_ne_nil _ _, hblank⟩, rfl⟩
          split at h
          · next code hcode =>
              cases h
              exact hparts _ hcode
          · next hspace hcode =>
              cases h
              have hhead : text.head? ≠ some ' ' := by
                intro hc
                obtain ⟨tail, rfl⟩ := List.head?_eq_some_iff.mp hc
                exact hspace tail rfl
              simpa [hhead] using hparts _ hcode
          · cases h
      · cases h
  · cases h

theorem context?_of_isNumbered {cs number text : List Char} (h : IsNumbered cs number text) :
    context? cs = some (number, text) := by
  obtain ⟨pad, gap, rest, rfl, hpad, ⟨hne, hdigit⟩, ⟨hgap, hblank⟩, rfl⟩ := h
  obtain ⟨d, ds, rfl⟩ := List.exists_cons_of_ne_nil hne
  obtain ⟨g, gs, rfl⟩ := List.exists_cons_of_ne_nil hgap
  have hd : ¬ isBlank d = true := by
    simp [Text.isBlank_of_isDigit (hdigit d List.mem_cons_self)]
  have hg : ¬ isDigit g = true := by
    intro hdig
    have hfalse := Text.isBlank_of_isDigit hdig
    rw [hblank g List.mem_cons_self] at hfalse
    cases hfalse
  have hgs : ∀ c ∈ gs, isBlank c = true := fun c hc => hblank c (List.mem_cons_of_mem g hc)
  have hnumbered : (pad ++ (d :: ds) ++ (g :: gs) ++ '|' :: rest).dropWhile isBlank =
      (d :: ds) ++ g :: (gs ++ '|' :: rest) := by
    rw [List.append_assoc, List.append_assoc, List.dropWhile_append_of_pos hpad, List.cons_append,
      List.dropWhile_cons_of_neg hd]
    rfl
  rw [context?, hnumbered]
  rw [List.takeWhile_append_of_pos hdigit, List.dropWhile_append_of_pos hdigit,
    List.takeWhile_cons_of_neg hg, List.dropWhile_cons_of_neg hg, List.append_nil]
  simp only [hblank g List.mem_cons_self, List.dropWhile_append_of_pos hgs]
  cases rest with
  | nil => simp [isBlank]
  | cons c rest => by_cases hc : c = ' ' <;> simp [isBlank, hc]

/-- **A line is classified by its shape.** -/
theorem Line.read_eq_iff {cs : List Char} {l : Line} : Line.read cs = l ↔ IsLine cs l := by
  constructor
  · rintro rfl
    rw [Line.read]
    cases hh : header? cs with
    | some p =>
        obtain ⟨m, hm, heq⟩ := header?_eq_some_iff.mp hh
        simpa [heq] using IsLine.header hm
    | none =>
        have hno := header?_eq_none_iff.mp hh
        cases ha : arrow? cs with
        | some location =>
            obtain ⟨before, after, hcut, rfl⟩ := arrow?_eq_some_iff.mp ha
            exact .arrow hno hcut
        | none =>
            have hnone := arrow?_eq_none_iff.mp ha
            cases hc : context? cs with
            | some p => exact .context hno hnone (isNumbered_of_context? hc)
            | none =>
                refine .noise hno hnone fun number text h => ?_
                rw [context?_of_isNumbered h] at hc
                cases hc
  · intro h
    rw [Line.read]
    cases h with
    | header h => simp [header?_eq_some_iff.mpr ⟨_, h, rfl⟩]
    | arrow hno hcut =>
        simp [header?_eq_none_iff.mpr hno, arrow?_eq_some_iff.mpr ⟨_, _, hcut, rfl⟩]
    | context hno hnone h =>
        simp [header?_eq_none_iff.mpr hno, arrow?_eq_none_iff.mpr hnone, context?_of_isNumbered h]
    | noise hno hnone h =>
        have hc : context? cs = none := by
          rw [Option.eq_none_iff_forall_ne_some]
          rintro ⟨number, text⟩ heq
          exact h number text (isNumbered_of_context? heq)
        simp [header?_eq_none_iff.mpr hno, arrow?_eq_none_iff.mpr hnone, hc]

/-! ## The lines cut at the arrows -/

/-- An arrow line and the lines that follow it. -/
structure Section where
  location : List Char
  body : List Line

def Section.lines (s : Section) : List Line := .arrow s.location :: s.body

def Line.isArrow : Line → Bool
  | .arrow _ => true
  | _ => false

/-- The number and the text of a context line. -/
def Line.code? : Line → Option (List Char × List Char)
  | .context number text => some (number, text)
  | _ => none

/-- The tag and the message of a header. -/
def Line.heading? : Line → Option (List Char × List Char)
  | .header tag message => some (tag, message)
  | _ => none

/-- `ls` is `before`, then the sections in order, and there are no arrow lines but those that open
the sections. -/
structure IsCut (ls before : List Line) (sections : List Section) : Prop where
  lines_eq : ls = before ++ sections.flatMap Section.lines
  before_plain : ∀ l ∈ before, l.isArrow = false
  body_plain : ∀ s ∈ sections, ∀ l ∈ s.body, l.isArrow = false

theorem exists_isCut (ls : List Line) : ∃ before sections, IsCut ls before sections := by
  induction ls with
  | nil => exact ⟨[], [], rfl, by simp, by simp⟩
  | cons l ls ih =>
      obtain ⟨before, sections, rfl, hbefore, hbody⟩ := ih
      cases hl : l.isArrow with
      | true =>
          -- what stood before the first arrow so far is the body of a new section
          obtain ⟨location, rfl⟩ : ∃ location, l = .arrow location := by
            cases l <;> simp_all [Line.isArrow]
          refine ⟨[], ⟨location, before⟩ :: sections, by simp [Section.lines], by simp, ?_⟩
          intro s hs
          rcases List.mem_cons.mp hs with rfl | hs
          · exact hbefore
          · exact hbody s hs
      | false =>
          refine ⟨l :: before, sections, rfl, ?_, hbody⟩
          intro m hm
          rcases List.mem_cons.mp hm with rfl | hm
          · exact hl
          · exact hbefore m hm

theorem blocks_append_of_plain {as : List Line} (h : ∀ l ∈ as, l.isArrow = false)
    (bs : List Line) : blocks (as ++ bs) = blocks bs := by
  induction as with
  | nil => rfl
  | cons a as ih =>
      have ha := h a List.mem_cons_self
      have has := ih fun l hl => h l (List.mem_cons_of_mem a hl)
      cases a <;> simp_all [blocks, Line.isArrow]

theorem contextUpTo_append_of_plain {as : List Line} (h : ∀ l ∈ as, l.isArrow = false)
    (bs : List Line) : contextUpTo (as ++ bs) = as.filterMap Line.code? ++ contextUpTo bs := by
  induction as with
  | nil => rfl
  | cons a as ih =>
      have ha := h a List.mem_cons_self
      have has := ih fun l hl => h l (List.mem_cons_of_mem a hl)
      cases a <;> simp_all [contextUpTo, Line.isArrow, Line.code?, List.filterMap_cons]

theorem contextUpTo_sections (sections : List Section) :
    contextUpTo (sections.flatMap Section.lines) = [] := by
  cases sections with
  | nil => rfl
  | cons s sections => rfl

def Section.block (s : Section) : Block := ⟨s.location, s.body.filterMap Line.code?⟩

/-- **A cut gives the blocks.** -/
theorem IsCut.blocks_eq {ls before : List Line} {sections : List Section}
    (h : IsCut ls before sections) : blocks ls = sections.map Section.block := by
  obtain ⟨rfl, hbefore, hbody⟩ := h
  rw [blocks_append_of_plain hbefore]
  induction sections with
  | nil => rfl
  | cons s sections ih =>
      have hs : ∀ l ∈ s.body, l.isArrow = false := hbody s List.mem_cons_self
      have hctx : contextUpTo (s.body ++ sections.flatMap Section.lines) =
          s.body.filterMap Line.code? := by
        rw [contextUpTo_append_of_plain hs, contextUpTo_sections, List.append_nil]
      rw [List.flatMap_cons, Section.lines, List.cons_append, blocks, hctx,
        blocks_append_of_plain hs, ih fun s' hs' => hbody s' (List.mem_cons_of_mem s hs')]
      rfl

theorem countP_isArrow_of_plain {ls : List Line} (h : ∀ l ∈ ls, l.isArrow = false) :
    ls.countP Line.isArrow = 0 := by
  rw [List.countP_eq_zero]
  intro l hl
  simp [h l hl]

/-- There are as many sections as arrow lines. -/
theorem IsCut.countP_eq {ls before : List Line} {sections : List Section}
    (h : IsCut ls before sections) : ls.countP Line.isArrow = sections.length := by
  obtain ⟨rfl, hbefore, hbody⟩ := h
  rw [List.countP_append, countP_isArrow_of_plain hbefore, Nat.zero_add]
  induction sections with
  | nil => rfl
  | cons s sections ih =>
      rw [List.flatMap_cons, List.countP_append, Section.lines, List.countP_cons,
        countP_isArrow_of_plain (hbody s List.mem_cons_self),
        ih fun s' hs' => hbody s' (List.mem_cons_of_mem s hs')]
      simp [Line.isArrow, Nat.add_comm]

theorem IsCut.eq_nil_iff {ls before : List Line} {sections : List Section}
    (h : IsCut ls before sections) : sections = [] ↔ ∀ l ∈ ls, l.isArrow = false := by
  rw [← List.length_eq_zero_iff, ← h.countP_eq, List.countP_eq_zero]
  simp

theorem firstHeader?_eq (ls : List Line) : firstHeader? ls = ls.findSome? Line.heading? := by
  induction ls with
  | nil => rfl
  | cons l ls ih => cases l <;> simp [firstHeader?, Line.heading?, List.findSome?_cons, ih]

/-! ## Frames -/

/-- Where each step may fail, a list of steps gives its results in order or fails. -/
theorem mapM_eq_ok_iff {α β ε : Type} {f : α → Except ε β} {as : List α} {bs : List β} :
    as.mapM f = .ok bs ↔ List.Forall₂ (fun a b => f a = .ok b) as bs := by
  induction as generalizing bs with
  | nil =>
      rw [List.mapM_nil, List.forall₂_nil_left_iff]
      constructor
      · intro h
        cases h
        rfl
      · rintro rfl
        rfl
  | cons a as ih =>
      rw [List.mapM_cons, List.forall₂_cons_left_iff]
      cases ha : f a with
      | error e =>
          refine ⟨nofun, ?_⟩
          rintro ⟨b, _, h, -⟩
          cases h
      | ok b =>
          cases has : as.mapM f with
          | error e =>
              refine ⟨nofun, ?_⟩
              rintro ⟨_, bs, -, h, -⟩
              rw [ih.mpr h] at has
              cases has
          | ok bs' =>
              constructor
              · intro h
                cases h
                exact ⟨b, bs', rfl, ih.mp has, rfl⟩
              · rintro ⟨_, bs, h, hbs, rfl⟩
                cases h
                rw [ih.mpr hbs] at has
                cases has
                rfl

theorem codeLines_eq_mapM (line : Int) (context : List (List Char × List Char)) :
    codeLines line context = context.mapM fun p => codeLine line p.1 p.2 := by
  induction context with
  | nil => rfl
  | cons p context ih =>
      rw [List.mapM_cons, codeLines, ih]
      cases codeLine line p.1 p.2 with
      | error e => rfl
      | ok c => cases context.mapM fun p => codeLine line p.1 p.2 <;> rfl

theorem frames_eq_mapM (origin : Option String) (bs : List Block) :
    frames origin bs = bs.mapM (Block.frame origin) := by
  induction bs with
  | nil => rfl
  | cons b bs ih =>
      rw [List.mapM_cons, frames, ih]
      cases b.frame origin with
      | error e => rfl
      | ok f => cases bs.mapM (Block.frame origin) <;> rfl

/-- The code line of a context line, in a frame at `line`. -/
def IsCodeLine (line : Nat) (p : List Char × List Char) (c : CodeLine) : Prop :=
  p.1.length ≤ maxDigits ∧ c.number = digitsValue p.1 ∧ c.text = String.ofList p.2 ∧
    (c.pointer = true ↔ c.number = line)

/-- The frame of a section; `origin` stands in for a missing file. -/
def IsFrame (origin : Option String) (s : Section) (f : Frame) : Prop :=
  ∃ file line, splitLocation s.location = .ok (file, line) ∧
    f.file = (if file = [] then origin.getD "" else String.ofList file) ∧ f.line = line ∧
    f.label = "transpile" ∧ List.Forall₂ (IsCodeLine line) (s.body.filterMap Line.code?) f.code

theorem codeLine_eq_ok_iff {line : Nat} {p : List Char × List Char} {c : CodeLine} :
    codeLine line p.1 p.2 = .ok c ↔ IsCodeLine line p c := by
  rw [codeLine, Text.readDigits, IsCodeLine]
  by_cases hlen : p.1.length ≤ maxDigits
  · rw [if_pos hlen]
    obtain ⟨number, text, pointer⟩ := c
    simp only [Except.ok.injEq, CodeLine.mk.injEq, hlen, true_and]
    constructor
    · rintro ⟨rfl, rfl, rfl⟩
      exact ⟨rfl, rfl, beq_iff_eq⟩
    · rintro ⟨rfl, rfl, hpointer⟩
      refine ⟨rfl, rfl, ?_⟩
      rw [Bool.eq_iff_iff, hpointer, beq_iff_eq]
  · rw [if_neg hlen]
    simp [hlen]

theorem textOr_empty (s : Option String) : textOr "" s = s.getD "" := by
  cases s with
  | none => rfl
  | some s => by_cases hs : s = "" <;> simp [textOr, hs]

theorem textOr_origin (origin : Option String) (file : List Char) :
    textOr (textOr "" origin) (some (String.ofList file)) =
      if file = [] then origin.getD "" else String.ofList file := by
  rw [textOr_empty]
  by_cases hfile : file = [] <;> simp [textOr, hfile]

theorem frame_eq_ok_iff {origin : Option String} {s : Section} {f : Frame} :
    s.block.frame origin = .ok f ↔ IsFrame origin s f := by
  rw [Block.frame_eq, IsFrame, Section.block]
  dsimp only
  cases hloc : splitLocation s.location with
  | error e => simp
  | ok p =>
      obtain ⟨file, line⟩ := p
      have hcode : ∀ code, codeLines line (s.body.filterMap Line.code?) = .ok code ↔
          List.Forall₂ (IsCodeLine line) (s.body.filterMap Line.code?) code := by
        intro code
        rw [codeLines_eq_mapM, mapM_eq_ok_iff]
        simp only [codeLine_eq_ok_iff]
      obtain ⟨ffile, fline, label, code⟩ := f
      dsimp only
      cases hc : codeLines line (s.body.filterMap Line.code?) with
      | error e =>
          refine ⟨nofun, ?_⟩
          rintro ⟨_, _, h, -, -, -, hall⟩
          cases h
          rw [(hcode _).mpr hall] at hc
          cases hc
      | ok code' =>
          simp only [Except.ok.injEq, Frame.mk.injEq, textOr_origin, Stage.label]
          constructor
          · rintro ⟨rfl, rfl, rfl, rfl⟩
            exact ⟨file, line, rfl, rfl, rfl, rfl, (hcode _).mp hc⟩
          · rintro ⟨_, _, h, rfl, rfl, rfl, hall⟩
            cases h
            rw [(hcode _).mpr hall] at hc
            cases hc
            exact ⟨rfl, rfl, rfl, rfl⟩

theorem IsCut.frames_eq_ok_iff {ls before : List Line} {sections : List Section}
    (h : IsCut ls before sections) {origin : Option String} {fs : List Frame} :
    frames origin (blocks ls) = .ok fs ↔ List.Forall₂ (IsFrame origin) sections fs := by
  rw [frames_eq_mapM, mapM_eq_ok_iff, h.blocks_eq, List.forall₂_map_left_iff]
  simp only [frame_eq_ok_iff]

/-! ## Tracebacks -/

theorem traceback_eq_iff {t u : Traceback} :
    t = u ↔ t.kind = u.kind ∧ t.message = u.message ∧ t.frames = u.frames := by
  cases t
  cases u
  simp

/-- The tag of the first header, which is the kind of the traceback. -/
def headingKind (ls : List Line) : String :=
  match ls.findSome? Line.heading? with
  | some (tag, _) => String.ofList tag
  | none => "TranspileError"

/-- The message of the first header, or the text given for a missing header. -/
def headingMessage (default : List Char) (ls : List Line) : String :=
  match ls.findSome? Line.heading? with
  | some (_, message) => String.ofList message
  | none => String.ofList default

@[simp] theorem headingKind_header (tag message : List Char) (ls : List Line) :
    headingKind (.header tag message :: ls) = String.ofList tag := rfl

@[simp] theorem headingMessage_header (default tag message : List Char) (ls : List Line) :
    headingMessage default (.header tag message :: ls) = String.ofList message := rfl

/-- The traceback that a text stands for. With an arrow line in it there is a frame for every arrow
line. Without one there is a single frame that holds the trimmed text; its message is the first of
the header's message and the text that is not empty. -/
inductive Reads (origin : Option String) (raw : List Char) (t : Traceback) : Prop
  | located {ls before sections} : List.Forall₂ IsLine (Text.lines raw) ls →
      IsCut ls before sections → sections ≠ [] →
      List.Forall₂ (IsFrame origin) sections t.frames →
      t.kind = headingKind ls → t.message = headingMessage (trim raw) ls → Reads origin raw t
  | unlocated {ls} : List.Forall₂ IsLine (Text.lines raw) ls → (∀ l ∈ ls, l.isArrow = false) →
      t.frames = [⟨origin.getD "", 0, "transpile", [⟨0, String.ofList (trim raw), true⟩]⟩] →
      t.kind = "TranspileError" →
      t.message = ([headingMessage [] ls, String.ofList (trim raw)].find? (· ≠ "")).getD
        "transpilation failed" → Reads origin raw t

theorem forall₂_isLine_iff {css : List (List Char)} {ls : List Line} :
    List.Forall₂ IsLine css ls ↔ css.map Line.read = ls := by
  rw [← List.forall₂_eq_eq_eq, List.forall₂_map_left_iff]
  simp only [Line.read_eq_iff]

theorem headingKind_eq (ls : List Line) :
    headingKind ls = ((firstHeader? ls).map (String.ofList ·.1)).getD Stage.translate.kind := by
  rw [headingKind, firstHeader?_eq]
  cases ls.findSome? Line.heading? <;> rfl

theorem headingMessage_eq (default : List Char) (ls : List Line) :
    headingMessage default ls = String.ofList (((firstHeader? ls).map (·.2)).getD default) := by
  rw [headingMessage, firstHeader?_eq]
  cases ls.findSome? Line.heading? <;> rfl

theorem fallbackMessage_eq (raw : List Char) (ls : List Line) :
    (Traceback.fallback .translate "" raw ((firstHeader? ls).map (String.ofList ·.2))).message =
      ([headingMessage [] ls, String.ofList (trim raw)].find? (· ≠ "")).getD
        "transpilation failed" := by
  rw [headingMessage_eq]
  cases firstHeader? ls with
  | none =>
      by_cases htext : trim raw = [] <;>
        simp [Traceback.fallback, textOr, Stage.defaultMessage, htext]
  | some p =>
      by_cases hp : p.2 = [] <;> by_cases htext : trim raw = [] <;>
        simp [Traceback.fallback, textOr, Stage.defaultMessage, hp, htext]

/-- Which cut of the lines is taken makes no difference. -/
theorem reads_iff_of_isCut {origin : Option String} {raw : List Char} {t : Traceback}
    {before : List Line} {sections : List Section}
    (hcut : IsCut ((Text.lines raw).map Line.read) before sections) (hne : sections ≠ []) :
    Reads origin raw t ↔ List.Forall₂ (IsFrame origin) sections t.frames ∧
      t.kind = headingKind ((Text.lines raw).map Line.read) ∧
      t.message = headingMessage (trim raw) ((Text.lines raw).map Line.read) := by
  constructor
  · intro h
    cases h with
    | located hlines hcut' _ hall hkind hmessage =>
        obtain rfl := forall₂_isLine_iff.mp hlines
        exact ⟨hcut.frames_eq_ok_iff.mp (hcut'.frames_eq_ok_iff.mpr hall), hkind, hmessage⟩
    | unlocated hlines hno =>
        obtain rfl := forall₂_isLine_iff.mp hlines
        exact absurd (hcut.eq_nil_iff.mpr hno) hne
  · rintro ⟨hall, hkind, hmessage⟩
    exact .located (forall₂_isLine_iff.mpr rfl) hcut hne hall hkind hmessage

/-- There is a frame for each arrow line, and one if there is none. -/
theorem Reads.length_frames {origin : Option String} {raw : List Char} {t : Traceback}
    (h : Reads origin raw t) :
    t.frames.length = max 1 (((Text.lines raw).map Line.read).countP Line.isArrow) := by
  cases h with
  | located hlines hcut hne hall =>
      obtain rfl := forall₂_isLine_iff.mp hlines
      have hpos := List.length_pos_iff.mpr hne
      rw [← hall.length_eq, hcut.countP_eq]
      omega
  | unlocated hlines hno hframes =>
      obtain rfl := forall₂_isLine_iff.mp hlines
      rw [hframes, countP_isArrow_of_plain hno]
      rfl

theorem reads_of_read {origin : Option String} {raw : List Char} {t : Traceback}
    (h : read origin raw = .ok t) : Reads origin raw t := by
  have hlines : List.Forall₂ IsLine (Text.lines raw) ((Text.lines raw).map Line.read) :=
    forall₂_isLine_iff.mpr rfl
  obtain ⟨before, sections, hcut⟩ := exists_isCut ((Text.lines raw).map Line.read)
  rw [read_eq] at h
  split at h
  · cases h
  · next hframes =>
      cases h
      have hnil : sections = [] := by
        simpa using hcut.frames_eq_ok_iff.mp hframes
      refine .unlocated hlines (hcut.eq_nil_iff.mp hnil) ?_ rfl (fallbackMessage_eq raw _)
      rw [← textOr_empty]
      rfl
  · next f fs hframes =>
      cases h
      have hall := hcut.frames_eq_ok_iff.mp hframes
      refine .located hlines hcut ?_ hall (headingKind_eq _).symm (headingMessage_eq _ _).symm
      rintro rfl
      cases hall

theorem read_of_reads {origin : Option String} {raw : List Char} {t : Traceback}
    (h : Reads origin raw t) : read origin raw = .ok t := by
  obtain ⟨kind, message, fs, hne⟩ := t
  cases h with
  | located hlines hcut hsome hall hkind hmessage =>
      obtain rfl := forall₂_isLine_iff.mp hlines
      dsimp only at hall hkind hmessage
      rw [read_eq, hcut.frames_eq_ok_iff.mpr hall, hkind, hmessage, headingKind_eq,
        headingMessage_eq]
      cases fs with
      | nil => exact absurd rfl hne
      | cons f fs => rfl
  | @unlocated ls hlines hno hframes hkind hmessage =>
      obtain rfl := forall₂_isLine_iff.mp hlines
      obtain ⟨before, sections, hcut⟩ := exists_isCut ((Text.lines raw).map Line.read)
      obtain rfl := hcut.eq_nil_iff.mpr hno
      dsimp only at hframes hkind hmessage
      rw [← textOr_empty] at hframes
      subst hframes hkind hmessage
      rw [read_eq, hcut.frames_eq_ok_iff.mpr .nil, ← fallbackMessage_eq]
      rfl

/-- **The translator's output is read by its grammar.** -/
theorem normalize_translate_iff (origin : Option String) (raw : String) (t : Traceback) :
    normalize .translate origin raw = .ok t ↔ Reads origin raw.toList t :=
  ⟨reads_of_read, read_of_reads⟩

end SketchBuild.Diagnostic.Translator
