import SketchBuild.Proofs.Diagnostic.Report

/-!
# Quoted code and the structure of a report

The code that a report quotes is chosen by whoever wrote the program. As long as it holds no arrow
it stays where it is: putting other code in its place changes the text of one code line and nothing
else (`Report.requote_of_arrowFree`). A quoted arrow is taken for a location, and the report then
has one frame more (`Report.length_frames_requote`).
-/

namespace SketchBuild.Diagnostic.Translator

open Text (digitsValue)

/-! ## Other code in the same place -/

def CodeRow.requote (q : Quote) (r : CodeRow) : CodeRow := { r with quote := q }

def Row.requote (q : Quote) : Row → Row
  | .code r => .code (r.requote q)
  | .decoration d => .decoration d

def Place.requote (j : Nat) (q : Quote) (p : Place) : Place :=
  { p with rows := p.rows.modify j (Row.requote q) }

/-- The report with other code in row `j` of place `i`. -/
def Report.requote (i j : Nat) (q : Quote) (r : Report) : Report :=
  { r with
    places := r.places.modify i (Place.requote j q)
    places_ne_nil := by simpa using r.places_ne_nil }

theorem exists_modify_eq {α : Type} {xs : List α} {i : Nat} {a : α} (h : xs[i]? = some a) :
    ∃ as bs, xs = as ++ a :: bs ∧ ∀ f, xs.modify i f = as ++ f a :: bs := by
  obtain ⟨hi, rfl⟩ := List.getElem?_eq_some_iff.mp h
  refine ⟨xs.take i, xs.drop (i + 1), ?_, fun f => List.modify_eq_take_cons_drop hi⟩
  rw [List.getElem_cons_drop, List.take_append_drop]

/-- Only the line of the row changes, and it stands below a location. -/
theorem Report.lines_requote {r : Report} {i j : Nat} {p : Place} {c : CodeRow}
    (hp : r.places[i]? = some p) (hc : p.rows[j]? = some (.code c)) :
    ∃ as bs, (∃ l ∈ as, (Line.read l).isArrow = true) ∧
      r.lines = r.header :: (as ++ c.print :: bs) ∧
      ∀ q, (r.requote i j q).lines = r.header :: (as ++ (c.requote q).print :: bs) := by
  obtain ⟨ps, ps', hps, hplaces⟩ := exists_modify_eq hp
  obtain ⟨rs, rs', hrs, hrows⟩ := exists_modify_eq hc
  have hlines : p.lines =
      ("  --> ".toList ++ p.location) :: (rs.map Row.print ++ c.print :: rs'.map Row.print) := by
    rw [Place.lines, hrs, List.map_append, List.map_cons]
    rfl
  have hlines' : ∀ q, (p.requote j q).lines = ("  --> ".toList ++ p.location) ::
      (rs.map Row.print ++ (c.requote q).print :: rs'.map Row.print) := by
    intro q
    show ("  --> ".toList ++ p.location) :: (p.rows.modify j (Row.requote q)).map Row.print = _
    rw [hrows, List.map_append, List.map_cons]
    rfl
  refine ⟨ps.flatMap Place.lines ++ ("  --> ".toList ++ p.location) :: rs.map Row.print,
    rs'.map Row.print ++ ps'.flatMap Place.lines, ?_, ?_, fun q => ?_⟩
  · refine ⟨"  --> ".toList ++ p.location, by simp, ?_⟩
    rw [p.read_location]
    rfl
  · rw [lines, hps, List.flatMap_append, List.flatMap_cons, hlines]
    simp
  · show r.header :: (r.places.modify i (Place.requote j q)).flatMap Place.lines = _
    rw [hplaces, List.flatMap_append, List.flatMap_cons, hlines']
    simp

theorem forall_mem_modify {α : Type} {P : α → Prop} {f : α → α} {xs : List α} (i : Nat)
    (h : ∀ a ∈ xs, P a) (hf : ∀ a, P a → P (f a)) : ∀ a ∈ xs.modify i f, P a := by
  cases hi : xs[i]? with
  | none =>
      rw [List.modify_eq_self (List.getElem?_eq_none_iff.mp hi)]
      exact h
  | some x =>
      obtain ⟨as, bs, rfl, hmodify⟩ := exists_modify_eq hi
      rw [hmodify]
      intro a ha
      rcases List.mem_append.mp ha with ha | ha
      · exact h a (List.mem_append_left _ ha)
      · rcases List.mem_cons.mp ha with rfl | ha
        · exact hf x (h x (by simp))
        · exact h a (by simp [ha])

theorem Report.arrowFree_requote {r : Report} (h : r.ArrowFree) (i j : Nat) {q : Quote}
    (hq : q.ArrowFree) : (r.requote i j q).ArrowFree := by
  refine forall_mem_modify i h fun p hp => ?_
  have hrows : ∀ row ∈ p.rows.modify j (Row.requote q), ∀ c, row = .code c →
      c.quote.ArrowFree := by
    refine forall_mem_modify j (fun row hrow c hc => hp c (hc ▸ hrow)) ?_
    intro row _ c hc
    cases row with
    | code r =>
        cases hc
        exact hq
    | decoration d => cases hc
  exact fun c hc => hrows _ hc c rfl

/-! ## Cuts around a line -/

theorem IsCut.cons {l : Line} (hl : l.isArrow = false) {ls before : List Line}
    {sections : List Section} (h : IsCut ls before sections) :
    IsCut (l :: ls) (l :: before) sections := by
  obtain ⟨rfl, hbefore, hbody⟩ := h
  exact ⟨rfl, List.forall_mem_cons.mpr ⟨hl, hbefore⟩, hbody⟩

/-- What comes before the first arrow of the second list belongs to the last section of the
first. -/
theorem IsCut.append {as bs before before' : List Line} {sections sections' : List Section}
    {s : Section} (h : IsCut as before (sections ++ [s])) (h' : IsCut bs before' sections') :
    IsCut (as ++ bs) before (sections ++ ⟨s.location, s.body ++ before'⟩ :: sections') := by
  obtain ⟨rfl, hbefore, hbody⟩ := h
  obtain ⟨rfl, hbefore', hbody'⟩ := h'
  refine ⟨by simp [Section.lines], hbefore, ?_⟩
  intro s' hs' l hl
  rcases List.mem_append.mp hs' with hs' | hs'
  · exact hbody s' (List.mem_append_left _ hs') l hl
  · rcases List.mem_cons.mp hs' with rfl | hs'
    · rcases List.mem_append.mp hl with hl | hl
      · exact hbody s (by simp) l hl
      · exact hbefore' l hl
    · exact hbody' s' hs' l hl

/-- A context line below an arrow, whatever its text, is in one and the same section. -/
theorem exists_isCut_context {as : List Line} (h : ∃ l ∈ as, l.isArrow = true) (bs : List Line)
    (number : List Char) :
    ∃ before sections location body body' sections', ∀ text,
      IsCut (as ++ .context number text :: bs) before
        (sections ++ ⟨location, body ++ .context number text :: body'⟩ :: sections') := by
  obtain ⟨before, sections, hcut⟩ := exists_isCut as
  obtain ⟨before', sections', hcut'⟩ := exists_isCut bs
  rcases List.eq_nil_or_concat sections with rfl | ⟨init, s, rfl⟩
  · obtain ⟨l, hl, harrow⟩ := h
    rw [hcut.eq_nil_iff.mp rfl l hl] at harrow
    cases harrow
  · rw [List.concat_eq_append] at hcut
    exact ⟨before, init, s.location, s.body, before', sections', fun text =>
      hcut.append (hcut'.cons rfl)⟩

/-! ## Frames around a line -/

theorem forall₂_append_cons_iff {α β : Type} {R : α → β → Prop} {as as' : List α} {a : α}
    {bs : List β} : List.Forall₂ R (as ++ a :: as') bs ↔ ∃ cs b cs', bs = cs ++ b :: cs' ∧
      List.Forall₂ R as cs ∧ R a b ∧ List.Forall₂ R as' cs' := by
  induction as generalizing bs with
  | nil =>
      rw [List.nil_append, List.forall₂_cons_left_iff]
      constructor
      · rintro ⟨b, cs', hab, has', rfl⟩
        exact ⟨[], b, cs', rfl, .nil, hab, has'⟩
      · rintro ⟨cs, b, cs', rfl, hnil, hab, has'⟩
        rw [List.forall₂_nil_left_iff.mp hnil]
        exact ⟨b, cs', hab, has', rfl⟩
  | cons x as ih =>
      rw [List.cons_append, List.forall₂_cons_left_iff]
      constructor
      · rintro ⟨y, bs', hxy, hrest, rfl⟩
        obtain ⟨cs, b, cs', rfl, has, hab, has'⟩ := ih.mp hrest
        exact ⟨y :: cs, b, cs', rfl, .cons hxy has, hab, has'⟩
      · rintro ⟨cs, b, cs', rfl, hxas, hab, has'⟩
        obtain ⟨y, cs, hxy, has, rfl⟩ := List.forall₂_cons_left_iff.mp hxas
        exact ⟨y, cs ++ b :: cs', hxy, ih.mpr ⟨cs, b, cs', rfl, has, hab, has'⟩, rfl⟩

/-- Other code in a context line gives other code in one code line. -/
theorem IsFrame.requote {origin : Option String} {location number old : List Char}
    {body body' : List Line} {f : Frame}
    (h : IsFrame origin ⟨location, body ++ .context number old :: body'⟩ f) :
    ∃ cs pointer cs', f.code = cs ++ ⟨digitsValue number, String.ofList old, pointer⟩ :: cs' ∧
      ∀ new, IsFrame origin ⟨location, body ++ .context number new :: body'⟩
        { f with code := cs ++ ⟨digitsValue number, String.ofList new, pointer⟩ :: cs' } := by
  obtain ⟨file, line, hlocation, hfile, hline, hlabel, hcode⟩ := h
  have hctx : ∀ text, (body ++ .context number text :: body').filterMap Line.code? =
      body.filterMap Line.code? ++ (number, text) :: body'.filterMap Line.code? := by
    intro text
    rw [List.filterMap_append, List.filterMap_cons]
    rfl
  rw [hctx, forall₂_append_cons_iff] at hcode
  obtain ⟨cs, ⟨n, text, pointer⟩, cs', hf, hbody, ⟨hlen, hn, htext, hpointer⟩, hbody'⟩ := hcode
  dsimp only at hn htext
  subst hn htext
  refine ⟨cs, pointer, cs', hf, fun new => ?_⟩
  refine ⟨file, line, hlocation, hfile, hline, hlabel, ?_⟩
  rw [hctx, forall₂_append_cons_iff]
  exact ⟨cs, _, cs', rfl, hbody, ⟨hlen, rfl, rfl, hpointer⟩, hbody'⟩

/-! ## Reading with other code -/

/-- `fs'` is `fs` with other code in one code line. -/
def Requoted (number : Nat) (old new : Quote) (fs fs' : List Frame) : Prop :=
  ∃ before f after cs pointer cs', fs = before ++ f :: after ∧
    f.code = cs ++ ⟨number, String.ofList old.chars, pointer⟩ :: cs' ∧
    fs' = before ++
      { f with code := cs ++ ⟨number, String.ofList new.chars, pointer⟩ :: cs' } :: after

theorem Requoted.map_eq {number : Nat} {old new : Quote} {fs fs' : List Frame}
    (h : Requoted number old new fs fs') :
    fs'.map (fun f => (f.file, f.line)) = fs.map fun f => (f.file, f.line) := by
  obtain ⟨before, f, after, cs, pointer, cs', rfl, -, rfl⟩ := h
  simp

section

variable {r : Report} {i j : Nat} {p : Place} {c : CodeRow} {origin : Option String}
  {raw raw' : List Char} {t t' : Traceback} {q : Quote}

theorem Report.lines_requote_self (hp : r.places[i]? = some p)
    (hc : p.rows[j]? = some (.code c)) : (r.requote i j c.quote).lines = r.lines := by
  obtain ⟨as, bs, -, hlines, hlines'⟩ := r.lines_requote hp hc
  exact (hlines' c.quote).trans hlines.symm

/-- The lines of the report as they are read, around the line of the row. -/
theorem Report.read_lines_requote (hp : r.places[i]? = some p)
    (hc : p.rows[j]? = some (.code c)) :
    ∃ as bs, (∃ l ∈ as, l.isArrow = true) ∧ ∀ q,
      (r.requote i j q).lines.map Line.read = .header ("error".toList ++ r.tag) r.message ::
        (as ++ Line.read (c.requote q).print :: bs) := by
  obtain ⟨as, bs, ⟨l, hl, harrow⟩, -, hlines⟩ := r.lines_requote hp hc
  refine ⟨as.map Line.read, bs.map Line.read, ⟨_, List.mem_map_of_mem hl, harrow⟩, fun q => ?_⟩
  rw [hlines, List.map_cons, r.read_header, List.map_append, List.map_cons]

/-- Which frames are read depends on the code of the row in one section only. -/
theorem Report.exists_reads_requote_iff (hp : r.places[i]? = some p)
    (hc : p.rows[j]? = some (.code c)) (origin : Option String) :
    ∃ sections location body body' sections', ∀ {q : Quote} {raw : List Char} {t : Traceback},
      q.ArrowFree → Text.lines raw = (r.requote i j q).lines → (Reads origin raw t ↔
        List.Forall₂ (IsFrame origin) (sections ++ ⟨location,
          body ++ .context (Nat.toDigits 10 c.number) q.chars :: body'⟩ :: sections') t.frames ∧
        t.kind = String.ofList ("error".toList ++ r.tag) ∧
        t.message = String.ofList r.message) := by
  obtain ⟨as, bs, harrow, hlines⟩ := r.read_lines_requote hp hc
  obtain ⟨before, sections, location, body, body', sections', hcut⟩ :=
    exists_isCut_context harrow bs (Nat.toDigits 10 c.number)
  refine ⟨sections, location, body, body', sections', ?_⟩
  intro q raw t hq hraw
  have hread : Line.read (c.requote q).print = .context (Nat.toDigits 10 c.number) q.chars :=
    CodeRow.read_print (r := c.requote q) hq
  have hcut' := (hcut q.chars).cons (l := .header ("error".toList ++ r.tag) r.message) rfl
  rw [← hread, ← hlines, ← hraw] at hcut'
  rw [reads_iff_of_isCut hcut' (by simp), hraw, hlines, hread, headingKind_header,
    headingMessage_header]

/-- **Code without an arrow in place of code without an arrow changes one code line.** -/
theorem Report.requote_of_arrowFree (hp : r.places[i]? = some p)
    (hc : p.rows[j]? = some (.code c)) (hfree : c.quote.ArrowFree)
    (hraw : Text.lines raw = r.lines) (ht : read origin raw = .ok t) (hq : q.ArrowFree)
    (hraw' : Text.lines raw' = (r.requote i j q).lines) :
    ∃ t', read origin raw' = .ok t' ∧ t'.kind = t.kind ∧ t'.message = t.message ∧
      Requoted c.number c.quote q t.frames t'.frames := by
  obtain ⟨sections, location, body, body', sections', hreads⟩ :=
    r.exists_reads_requote_iff hp hc origin
  rw [← r.lines_requote_self hp hc] at hraw
  obtain ⟨hframes, hkind, hmessage⟩ := (hreads hfree hraw).mp (reads_of_read ht)
  obtain ⟨fs, f, fs', hfs, hbefore, hf, hafter⟩ := forall₂_append_cons_iff.mp hframes
  obtain ⟨cs, pointer, cs', hcode, hnew⟩ := hf.requote
  rw [Text.digitsValue_toDigits] at hcode hnew
  refine ⟨⟨t.kind, t.message, fs ++ { f with code := cs ++
      ⟨c.number, String.ofList q.chars, pointer⟩ :: cs' } :: fs', by simp⟩, ?_, rfl, rfl, ?_⟩
  · refine read_of_reads ((hreads hq hraw').mpr ⟨?_, hkind, hmessage⟩)
    exact forall₂_append_cons_iff.mpr ⟨fs, _, fs', rfl, hbefore, hnew q.chars, hafter⟩
  · exact ⟨fs, f, fs', cs, pointer, cs', hfs, hcode, rfl⟩

/-- **Code with an arrow in place of code without one gives a frame more.** -/
theorem Report.length_frames_requote (hp : r.places[i]? = some p)
    (hc : p.rows[j]? = some (.code c)) (hfree : c.quote.ArrowFree)
    (hraw : Text.lines raw = r.lines) (ht : read origin raw = .ok t) (hq : ¬ q.ArrowFree)
    (hraw' : Text.lines raw' = (r.requote i j q).lines) (ht' : read origin raw' = .ok t') :
    t'.frames.length = t.frames.length + 1 := by
  obtain ⟨as, bs, harrow, hlines⟩ := r.read_lines_requote hp hc
  have hpos : 0 < as.countP Line.isArrow := List.countP_pos_iff.mpr harrow
  have hold : (Line.read (c.requote c.quote).print).isArrow = false := by
    rw [CodeRow.read_print (r := c.requote c.quote) hfree]
    rfl
  have hnew : (Line.read (c.requote q).print).isArrow = true :=
    CodeRow.isArrow_read_print (r := c.requote q) hq
  rw [← r.lines_requote_self hp hc] at hraw
  rw [(reads_of_read ht).length_frames, (reads_of_read ht').length_frames, hraw, hraw', hlines,
    hlines,
    List.countP_cons_of_neg Bool.false_ne_true, List.countP_cons_of_neg Bool.false_ne_true,
    List.countP_append, List.countP_append, List.countP_cons_of_pos hnew,
    List.countP_cons_of_neg (by rw [hold]; exact Bool.false_ne_true)]
  omega

end

/-- **Quoted code does not change the structure of a traceback unless it holds an arrow.** The kind,
the message and the places stay, and the code line of the row has the new text. If no row quotes an
arrow, every frame has the code of its place. The texts may end their lines as they like. -/
theorem requote_keeps_structure (r : Report) (i j : Nat) (p : Place) (c : CodeRow)
    (hp : r.places[i]? = some p) (hc : p.rows[j]? = some (.code c)) (hfree : c.quote.ArrowFree)
    (origin : Option String) (raw : String) (hraw : Text.lines raw.toList = r.lines)
    (t : Traceback) (ht : normalize .translate origin raw = .ok t)
    (q : Quote) (raw' : String) (hraw' : Text.lines raw'.toList = (r.requote i j q).lines) :
    (q.ArrowFree → ∃ t', normalize .translate origin raw' = .ok t' ∧
      t'.kind = t.kind ∧ t'.message = t.message ∧
      t'.frames.map (fun f => (f.file, f.line)) = t.frames.map (fun f => (f.file, f.line)) ∧
      Requoted c.number c.quote q t.frames t'.frames ∧
      (r.ArrowFree → t'.frames = (r.requote i j q).places.map Place.frame)) ∧
    (¬ q.ArrowFree → ∀ t', normalize .translate origin raw' = .ok t' →
      t'.frames.length = t.frames.length + 1) := by
  rw [normalize_translate] at ht
  rw [normalize_translate]
  constructor
  · intro hq
    obtain ⟨t', ht', hkind, hmessage, hframes⟩ :=
      r.requote_of_arrowFree hp hc hfree hraw ht hq hraw'
    refine ⟨t', ht', hkind, hmessage, hframes.map_eq, hframes, fun hall => ?_⟩
    rw [((Report.read_iff (r.arrowFree_requote hall i j hq) hraw').mp ht').2]
    rfl
  · intro hq t' ht'
    exact r.length_frames_requote hp hc hfree hraw ht hq hraw' ht'

namespace Sample

def comment : Quote := ⟨"// 4 | err".toList, by decide +kernel⟩

def arrow : Quote := ⟨"go // -->".toList, by decide +kernel⟩

/-- A report of three lines: a header, a place and a row. -/
def terse : Report where
  tag := []
  message := ['x']
  places := [{
    file := ['a'], line := 1, column := 1
    rows := [.code ⟨[], 1, ⟨['g', 'o'], by decide⟩, by decide⟩]
    file_ne_nil := by decide, file_trimmed := by decide, file_unbroken := by decide
    file_head := by decide }]
  isTag := by decide
  message_trimmed := by decide
  message_unbroken := by decide
  places_ne_nil := List.cons_ne_nil _ _

end Sample

theorem requote_keeps_structure_sample :
    ∃ t, normalize .translate none (Sample.report.requote 0 1 Sample.comment).print = .ok t ∧
      t.frames.map (fun f => (f.file, f.line)) =
        [("C:/my lamp.go:12", 3), ("C:/my lamp.go:12", 10)] := by
  have ht : normalize .translate none Sample.report.print = .ok Sample.report.traceback := by
    rw [normalize_translate]
    exact (Report.read_iff Sample.arrowFree (Report.lines_print _)).mpr ⟨Sample.legible, rfl⟩
  obtain ⟨t, hread, -, -, hplaces, -⟩ := (requote_keeps_structure Sample.report 0 1 Sample.place
    Sample.code rfl rfl (by decide +kernel) none _ (Report.lines_print _) _ ht Sample.comment _
    (Report.lines_print _)).1 (by decide +kernel)
  refine ⟨t, hread, hplaces.trans ?_⟩
  decide +kernel

/-- An arrow in quoted code is taken for a location: there is one frame more, and neither of the two
has the code. -/
theorem quoted_arrow_opens_frame :
    ∃ t t', normalize .translate none Sample.terse.print = .ok t ∧
      normalize .translate none (Sample.terse.requote 0 0 Sample.arrow).print = .ok t' ∧
      t.frames.map (fun f => f.code.length) = [1] ∧
      t'.frames.map (fun f => f.code.length) = [0, 0] := by
  have hlengths : ∀ raw ns, (normalize .translate none raw).toOption.map
      (fun t => t.frames.map fun f => f.code.length) = some ns →
      ∃ t, normalize .translate none raw = .ok t ∧ t.frames.map (fun f => f.code.length) = ns := by
    intro raw ns h
    cases hread : normalize .translate none raw with
    | error e =>
        rw [hread] at h
        cases h
    | ok t =>
        rw [hread] at h
        exact ⟨t, rfl, Option.some.inj h⟩
  obtain ⟨t, ht, hcode⟩ := hlengths Sample.terse.print [1] (by decide +kernel)
  obtain ⟨t', ht', hcode'⟩ :=
    hlengths (Sample.terse.requote 0 0 Sample.arrow).print [0, 0] (by decide +kernel)
  exact ⟨t, t', ht, ht', hcode, hcode'⟩

end SketchBuild.Diagnostic.Translator
