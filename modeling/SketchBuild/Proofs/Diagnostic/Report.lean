import SketchBuild.Proofs.Diagnostic.Grammar

/-!
# Reports of the translator

A `Report` is a diagnostic as the translator writes it: a header, then for each place its location
and below it rows of code and of decoration. The conditions under which its parts can be told apart
again are part of the type. Reading a report whose quoted code holds no arrow gives back exactly its
places, if its numbers are `Legible`:

    Report.read_iff : read origin raw = .ok t ↔ r.Legible ∧ t = r.traceback

for every text `raw` with the lines of `r`. What becomes of a quoted arrow is told elsewhere.
-/

namespace SketchBuild.Diagnostic.Translator

open Text (isBlank isDigit isLineBreak trim maxDigits IsFirstCut Unbroken)

/-- Code as it is quoted: any text that stays in its line. -/
structure Quote where
  chars : List Char
  unbroken : Unbroken chars

def Quote.ArrowFree (q : Quote) : Prop := ¬ "-->".toList <:+: q.chars

instance (q : Quote) : Decidable q.ArrowFree :=
  inferInstanceAs (Decidable (¬ "-->".toList <:+: q.chars))

/-- Blanks that stay in their line. -/
def IsPad (cs : List Char) : Prop := ∀ c ∈ cs, isBlank c = true ∧ isLineBreak c = false

instance (cs : List Char) : Decidable (IsPad cs) :=
  List.decidableBAll (fun c => isBlank c = true ∧ isLineBreak c = false) cs

/-- What may stand between the word and the colon of a header. -/
def IsTag (cs : List Char) : Prop := ∀ c ∈ cs, isBlank c = false ∧ c ≠ ':'

instance (cs : List Char) : Decidable (IsTag cs) :=
  List.decidableBAll (fun c => isBlank c = false ∧ c ≠ ':') cs

/-- A line of code with its number. -/
structure CodeRow where
  pad : List Char
  number : Nat
  quote : Quote
  isPad : IsPad pad

/-- A line that points into the code above it. -/
structure Decoration where
  pad : List Char
  mark : Char
  rest : List Char
  isPad : IsPad pad
  mark_eq : mark = '|' ∨ mark = '^'
  unbroken : Unbroken rest
  arrowFree : ¬ "-->".toList <:+: pad ++ mark :: rest

inductive Row
  | code (r : CodeRow)
  | decoration (d : Decoration)

/-- A place that a report names. The file may hold blanks, colons and arrows. -/
structure Place where
  file : List Char
  line : Nat
  column : Nat
  rows : List Row
  file_ne_nil : file ≠ []
  file_trimmed : trim file = file
  file_unbroken : Unbroken file
  file_head : file.head? ≠ some '·'

structure Report where
  tag : List Char
  message : List Char
  places : List Place
  isTag : IsTag tag
  message_trimmed : trim message = message
  message_unbroken : Unbroken message
  places_ne_nil : places ≠ []

/-! ## Printing -/

def CodeRow.print (r : CodeRow) : List Char :=
  r.pad ++ Nat.toDigits 10 r.number ++ " | ".toList ++ r.quote.chars

def Decoration.print (d : Decoration) : List Char := d.pad ++ d.mark :: d.rest

def Row.print : Row → List Char
  | .code r => r.print
  | .decoration d => d.print

def Place.location (p : Place) : List Char :=
  p.file ++ ':' :: Nat.toDigits 10 p.line ++ ':' :: Nat.toDigits 10 p.column

def Place.lines (p : Place) : List (List Char) :=
  ("  --> ".toList ++ p.location) :: p.rows.map Row.print

def Report.header (r : Report) : List Char := "error".toList ++ r.tag ++ ": ".toList ++ r.message

def Report.lines (r : Report) : List (List Char) := r.header :: r.places.flatMap Place.lines

/-- The report as a text. -/
def Report.print (r : Report) : String := "\n".intercalate (r.lines.map String.ofList)

/-! ## What a report means -/

def CodeRow.codeLine (line : Nat) (r : CodeRow) : CodeLine :=
  ⟨r.number, String.ofList r.quote.chars, r.number == line⟩

def Row.codeLine? (line : Nat) : Row → Option CodeLine
  | .code r => some (r.codeLine line)
  | .decoration _ => none

def Place.frame (p : Place) : Frame :=
  { file := String.ofList p.file, line := p.line, label := "transpile"
    code := p.rows.filterMap (Row.codeLine? p.line) }

def Report.traceback (r : Report) : Traceback :=
  { kind := String.ofList ("error".toList ++ r.tag)
    message := String.ofList r.message
    frames := r.places.map Place.frame
    frames_ne_nil := by simpa using r.places_ne_nil }

@[simp] theorem Report.traceback_kind (r : Report) :
    r.traceback.kind = String.ofList ("error".toList ++ r.tag) := rfl

@[simp] theorem Report.traceback_message (r : Report) :
    r.traceback.message = String.ofList r.message := rfl

@[simp] theorem Report.traceback_frames (r : Report) :
    r.traceback.frames = r.places.map Place.frame := rfl

/-- The code rows of a place satisfy `P`. -/
def Place.AllCode (P : CodeRow → Prop) (p : Place) : Prop := ∀ r, Row.code r ∈ p.rows → P r

/-- The number of the line and those of the code are short enough to be read. The column is never
read. -/
def Place.Legible (p : Place) : Prop :=
  p.line < 10 ^ maxDigits ∧ p.AllCode fun r => r.number < 10 ^ maxDigits

def Report.Legible (r : Report) : Prop := ∀ p ∈ r.places, p.Legible

/-- No quoted code holds an arrow. -/
def Report.ArrowFree (r : Report) : Prop := ∀ p ∈ r.places, p.AllCode fun c => c.quote.ArrowFree

/-! ## The lines of a report -/

theorem IsPad.unbroken {cs : List Char} (h : IsPad cs) : Unbroken cs := fun c hc => (h c hc).2

theorem IsPad.isBlank {cs : List Char} (h : IsPad cs) : ∀ c ∈ cs, isBlank c = true :=
  fun c hc => (h c hc).1

theorem isNumber_toDigits (n : Nat) :
    Nat.toDigits 10 n ≠ [] ∧ ∀ c ∈ Nat.toDigits 10 n, isDigit c = true :=
  ⟨Nat.toDigits_ne_nil, fun _ hc => Text.isDigit_of_mem_toDigits hc⟩

theorem unbroken_of_isDigit {digits : List Char} (h : ∀ c ∈ digits, isDigit c = true) :
    Unbroken digits :=
  fun c hc => Text.isLineBreak_of_not_isBlank (Text.isBlank_of_isDigit (h c hc))

theorem unbroken_toDigits (n : Nat) : Unbroken (Nat.toDigits 10 n) :=
  unbroken_of_isDigit (isNumber_toDigits n).2

theorem Row.unbroken_print (r : Row) : Unbroken r.print := by
  cases r with
  | code r =>
      exact ((r.isPad.unbroken.append (unbroken_toDigits _)).append (by decide)).append
        r.quote.unbroken
  | decoration d =>
      refine d.isPad.unbroken.append fun c hc => ?_
      rcases List.mem_cons.mp hc with rfl | hc
      · rcases d.mark_eq with h | h <;> rw [h] <;> decide
      · exact d.unbroken c hc

theorem Place.unbroken_location (p : Place) : Unbroken p.location := by
  have hcolon : ∀ n, Unbroken (':' :: Nat.toDigits 10 n) := by
    intro n c hc
    rcases List.mem_cons.mp hc with rfl | hc
    · decide
    · exact unbroken_toDigits n c hc
  exact (p.file_unbroken.append (hcolon _)).append (hcolon _)

theorem Report.unbroken_header (r : Report) : Unbroken r.header := by
  have htag : Unbroken r.tag := fun c hc => Text.isLineBreak_of_not_isBlank (r.isTag c hc).1
  refine (Unbroken.append ?_ (by decide)).append r.message_unbroken
  exact Unbroken.append (by decide) htag

/-- Every line of a report is a line, and none is empty. -/
theorem Report.mem_lines (r : Report) {l : List Char} (h : l ∈ r.lines) : Unbroken l ∧ l ≠ [] := by
  rcases List.mem_cons.mp h with rfl | h
  · refine ⟨r.unbroken_header, ?_⟩
    show "error".toList ++ r.tag ++ ": ".toList ++ r.message ≠ []
    simp
  · obtain ⟨p, -, hl⟩ := List.mem_flatMap.mp h
    rcases List.mem_cons.mp hl with rfl | hl
    · exact ⟨Unbroken.append (by decide) p.unbroken_location, by simp⟩
    · obtain ⟨row, -, rfl⟩ := List.mem_map.mp hl
      refine ⟨row.unbroken_print, ?_⟩
      cases row <;> simp [Row.print, CodeRow.print, Decoration.print]

theorem Report.toList_print (r : Report) : r.print.toList = ['\n'].intercalate r.lines := by
  rw [print, String.toList_intercalate, List.map_map]
  simp [Function.comp_def]

theorem Report.lines_print (r : Report) : Text.lines r.print.toList = r.lines := by
  rw [r.toList_print]
  refine Text.lines_intercalate (fun l hl => (r.mem_lines hl).1) ?_
  intro hlast
  exact (r.mem_lines (List.mem_of_getLast? hlast)).2 rfl

theorem Report.lines_print_newline (r : Report) :
    Text.lines (r.print ++ "\n").toList = r.lines := by
  rw [String.toList_append, r.toList_print]
  exact Text.lines_intercalate_newline (fun l hl => (r.mem_lines hl).1) (List.cons_ne_nil _ _)

/-! ## Reading one line back -/

theorem not_isHeader_of_head {cs : List Char} (h : cs.head? ≠ some 'e') (tag message : List Char) :
    ¬ IsHeader cs tag message := by
  rintro ⟨rest, rfl, rfl, -⟩
  exact h rfl

theorem Report.read_header (r : Report) :
    Line.read r.header = .header ("error".toList ++ r.tag) r.message := by
  have hline : IsLine r.header (.header ("error".toList ++ r.tag) (trim (' ' :: r.message))) := by
    refine .header ⟨r.tag, rfl, ?_, r.isTag⟩
    show "error".toList ++ r.tag ++ ": ".toList ++ r.message = _
    simp
  have htrim : trim (' ' :: r.message) = r.message := by
    rw [Text.trim_cons_of_blank rfl, r.message_trimmed]
  rw [Line.read_eq_iff.mpr hline, htrim]

/-- A location that starts with no blank and ends in a number has nothing to trim. -/
theorem trim_append_number {before digits : List Char} (hbefore : before ≠ [])
    (hhead : ∀ c, before.head? = some c → isBlank c = false)
    (hdigits : digits ≠ [] ∧ ∀ c ∈ digits, isDigit c = true) :
    trim (before ++ ':' :: digits) = before ++ ':' :: digits := by
  apply Text.trim_eq_self
  · intro c hc
    rw [List.head?_append_of_ne_nil _ hbefore] at hc
    exact hhead c hc
  · intro c hc
    rw [List.getLast?_append_cons, List.getLast?_cons_of_ne_nil hdigits.1] at hc
    exact Text.isBlank_of_isDigit (hdigits.2 c (List.mem_of_getLast? hc))

theorem Place.trim_location (p : Place) : trim p.location = p.location := by
  refine trim_append_number (by simp) (fun c hc => ?_) (isNumber_toDigits p.column)
  rw [List.head?_append_of_ne_nil _ p.file_ne_nil] at hc
  exact Text.isBlank_head_of_trim p.file_trimmed hc

theorem not_mem_of_isBlank {pad : List Char} (hpad : ∀ c ∈ pad, isBlank c = true) {c : Char}
    (hc : isBlank c = false) : c ∉ pad := by
  intro hmem
  rw [hpad c hmem] at hc
  cases hc

theorem head_append_of_isBlank {pad cs : List Char} (hpad : ∀ c ∈ pad, isBlank c = true) {c : Char}
    (hc : isBlank c = false) (hcs : cs.head? ≠ some c) : (pad ++ cs).head? ≠ some c := by
  cases pad with
  | nil => exact hcs
  | cons d pad =>
      intro h
      exact not_mem_of_isBlank hpad hc (Option.some.inj h ▸ List.mem_cons_self)

/-- The location behind an arrow is read as it was written, if there is nothing to trim. -/
theorem read_arrow {pad location : List Char} (hpad : ∀ c ∈ pad, isBlank c = true)
    (htrim : trim location = location) (hhead : location.head? ≠ some '·') :
    Line.read (pad ++ "-->".toList ++ ' ' :: location) = .arrow location := by
  have hcut : IsFirstCut "-->".toList (pad ++ "-->".toList ++ ' ' :: location) pad
      (' ' :: location) :=
    Text.isFirstCut_of_not_mem (not_mem_of_isBlank hpad (by decide)) _
  have hstart : (pad ++ "-->".toList ++ ' ' :: location).head? ≠ some 'e' := by
    rw [List.append_assoc]
    exact head_append_of_isBlank hpad (by decide) nofun
  have hdots : (trim (' ' :: location)).dropWhile (· == '·') = location := by
    rw [Text.trim_cons_of_blank rfl, htrim]
    cases location with
    | nil => rfl
    | cons c location => exact List.dropWhile_cons_of_neg (by simpa using hhead)
  rw [Line.read_eq_iff.mpr (.arrow (not_isHeader_of_head hstart) hcut), hdots, htrim]

theorem Place.read_location (p : Place) :
    Line.read ("  --> ".toList ++ p.location) = .arrow p.location := by
  have hhead : p.location.head? ≠ some '·' := by
    rw [location, List.append_assoc, List.head?_append_of_ne_nil _ p.file_ne_nil]
    exact p.file_head
  have hpad : ∀ c ∈ [' ', ' '], isBlank c = true := List.all_eq_true.mp rfl
  exact read_arrow hpad p.trim_location hhead

/-- Text without the first character of a mark before it does not hide the mark. -/
theorem infix_append_iff {c : Char} {mark as bs : List Char} (h : c ∉ as) :
    c :: mark <:+: as ++ bs ↔ c :: mark <:+: bs := by
  induction as with
  | nil => rfl
  | cons a as ih =>
      obtain ⟨hne, has⟩ := not_or.mp (mt List.mem_cons.mpr h)
      rw [List.cons_append, List.infix_cons_iff, ih has]
      simp [hne]

theorem CodeRow.arrow_infix_print (r : CodeRow) :
    "-->".toList <:+: r.print ↔ "-->".toList <:+: r.quote.chars := by
  have hpad : '-' ∉ r.pad := not_mem_of_isBlank r.isPad.isBlank (by decide)
  have hnumber : '-' ∉ Nat.toDigits 10 r.number := by
    intro hmem
    have := Text.isDigit_of_mem_toDigits hmem
    revert this
    decide +kernel
  have hmark : "-->".toList = '-' :: ['-', '>'] := rfl
  rw [hmark]
  refine infix_append_iff ?_
  simp [hpad, hnumber]

theorem CodeRow.head_print (r : CodeRow) : r.print.head? ≠ some 'e' := by
  rw [print, List.append_assoc, List.append_assoc]
  refine head_append_of_isBlank r.isPad.isBlank (by decide) fun h => ?_
  rw [List.head?_append_of_ne_nil _ Nat.toDigits_ne_nil] at h
  have hdigit : isDigit 'e' = true := Text.isDigit_of_mem_toDigits (List.mem_of_head? h)
  revert hdigit
  decide +kernel

/-- **Quoted code without an arrow is read back as it was written.** -/
theorem CodeRow.read_print {r : CodeRow} (h : r.quote.ArrowFree) :
    Line.read r.print = .context (Nat.toDigits 10 r.number) r.quote.chars := by
  refine Line.read_eq_iff.mpr (.context (not_isHeader_of_head r.head_print)
    (fun harrow => h (r.arrow_infix_print.mp harrow)) ?_)
  exact ⟨r.pad, [' '], ' ' :: r.quote.chars, by simp [print], r.isPad.isBlank,
    isNumber_toDigits r.number, ⟨List.cons_ne_nil _ _, List.all_eq_true.mp rfl⟩, rfl⟩

/-- Quoted code with an arrow is taken for a location. -/
theorem CodeRow.isArrow_read_print {r : CodeRow} (h : ¬ r.quote.ArrowFree) :
    (Line.read r.print).isArrow = true := by
  have hinfix : "-->".toList <:+: r.print := r.arrow_infix_print.mpr (not_not.mp h)
  have hheader := header?_eq_none_iff.mpr (not_isHeader_of_head r.head_print)
  cases harrow : arrow? r.print with
  | none => exact absurd hinfix (arrow?_eq_none_iff.mp harrow)
  | some location => simp [Line.read, hheader, harrow, Line.isArrow]

theorem Decoration.read_print (d : Decoration) : Line.read d.print = .noise := by
  have hmark : isBlank d.mark = false ∧ isDigit d.mark = false ∧ d.mark ≠ 'e' := by
    rcases d.mark_eq with h | h <;> rw [h] <;> decide +kernel
  have hdrop : d.print.dropWhile isBlank = d.mark :: d.rest := by
    rw [print, List.dropWhile_append_of_pos d.isPad.isBlank,
      List.dropWhile_cons_of_neg (by simp [hmark.1])]
  have hhead : d.print.head? ≠ some 'e' :=
    head_append_of_isBlank d.isPad.isBlank (by decide) fun h => hmark.2.2 (Option.some.inj h)
  refine Line.read_eq_iff.mpr (.noise (not_isHeader_of_head hhead) d.arrowFree ?_)
  intro number text h
  have hc := context?_of_isNumbered h
  rw [context?, hdrop, List.dropWhile_cons_of_neg (by simp [hmark.2.1]),
    List.takeWhile_cons_of_neg (by simp [hmark.2.1])] at hc
  cases hc

/-! ## Reading a location back -/

/-- A last field of digits is cut off, whatever stands before its colon. -/
theorem numberedTail?_append {before digits : List Char} (hbefore : before ≠ [])
    (hdigits : digits ≠ [] ∧ ∀ c ∈ digits, isDigit c = true) :
    numberedTail? (before ++ ':' :: digits) = some (before, digits) := by
  have hcolon : ¬ isDigit ':' = true := by decide +kernel
  have hrev : ∀ c ∈ digits.reverse, isDigit c = true :=
    fun c hc => hdigits.2 c (List.mem_reverse.mp hc)
  have hcs : (before ++ ':' :: digits).reverse = digits.reverse ++ ':' :: before.reverse := by
    simp
  rw [numberedTail?, hcs, List.takeWhile_append_of_pos hrev, List.dropWhile_append_of_pos hrev,
    List.takeWhile_cons_of_neg hcolon, List.dropWhile_cons_of_neg hcolon]
  simp [hbefore, hdigits.1]

theorem locationFields_append {file line column : List Char} (hfile : file ≠ [])
    (hline : line ≠ [] ∧ ∀ c ∈ line, isDigit c = true)
    (hcolumn : column ≠ [] ∧ ∀ c ∈ column, isDigit c = true) :
    locationFields (file ++ ':' :: line ++ ':' :: column) = (file, line) := by
  rw [locationFields, numberedTail?_append (by simp) hcolumn]
  dsimp only
  rw [numberedTail?_append hfile hline]

theorem Place.locationFields_location (p : Place) :
    locationFields p.location = (p.file, Nat.toDigits 10 p.line) :=
  locationFields_append p.file_ne_nil (isNumber_toDigits p.line) (isNumber_toDigits p.column)

theorem Place.splitLocation_eq_ok_iff (p : Place) {file : List Char} {line : Nat} :
    splitLocation p.location = .ok (file, line) ↔
      p.line < 10 ^ maxDigits ∧ file = p.file ∧ line = p.line := by
  rw [splitLocation, p.locationFields_location]
  by_cases h : p.line < 10 ^ maxDigits <;> simp [Text.readDigits_toDigits, h, eq_comm]

/-! ## Reading a report back -/

/-- What a row is read as, if it quotes no arrow. -/
def Row.line : Row → Line
  | .code r => .context (Nat.toDigits 10 r.number) r.quote.chars
  | .decoration _ => .noise

def Place.toSection (p : Place) : Section := ⟨p.location, p.rows.map Row.line⟩

theorem Place.read_lines {p : Place} (h : p.AllCode fun c => c.quote.ArrowFree) :
    p.lines.map Line.read = p.toSection.lines := by
  rw [lines, List.map_cons, p.read_location, List.map_map]
  refine congrArg (_ :: ·) (List.map_congr_left fun row hrow => ?_)
  cases row with
  | code r => exact CodeRow.read_print (h r hrow)
  | decoration d => exact d.read_print

theorem Report.isCut {r : Report} (h : r.ArrowFree) :
    IsCut (r.lines.map Line.read) [.header ("error".toList ++ r.tag) r.message]
      (r.places.map Place.toSection) := by
  refine ⟨?_, by simp [Line.isArrow], ?_⟩
  · rw [lines, List.map_cons, r.read_header, List.map_flatMap, List.flatMap_map]
    exact congrArg (_ :: ·) (List.flatMap_congr fun p hp => Place.read_lines (h p hp))
  · intro s hs l hl
    obtain ⟨p, -, rfl⟩ := List.mem_map.mp hs
    obtain ⟨row, -, rfl⟩ := List.mem_map.mp hl
    cases row <;> rfl

theorem CodeRow.isCodeLine_iff (r : CodeRow) {line : Nat} {c : CodeLine} :
    IsCodeLine line (Nat.toDigits 10 r.number, r.quote.chars) c ↔
      r.number < 10 ^ maxDigits ∧ c = r.codeLine line := by
  have hpointer : ((r.number : Int) == (line : Int)) = (r.number == line) := by
    rw [Bool.eq_iff_iff, beq_iff_eq, beq_iff_eq, Int.natCast_inj]
  rw [← codeLine_eq_ok_iff, Translator.codeLine]
  by_cases h : r.number < 10 ^ maxDigits <;>
    simp [Text.readDigits_toDigits, h, codeLine, hpointer, eq_comm]

theorem forall₂_isCodeLine_iff {rows : List Row} {line : Nat} {code : List CodeLine} :
    List.Forall₂ (IsCodeLine line) ((rows.map Row.line).filterMap Line.code?) code ↔
      (∀ r, Row.code r ∈ rows → r.number < 10 ^ maxDigits) ∧
        code = rows.filterMap (Row.codeLine? line) := by
  induction rows generalizing code with
  | nil => simp
  | cons row rows ih =>
      cases row with
      | decoration d => simpa [Row.line, Line.code?, Row.codeLine?, List.filterMap_cons] using ih
      | code r =>
          simp only [List.map_cons, Row.line, Line.code?, List.filterMap_cons, Row.codeLine?,
            List.forall₂_cons_left_iff, r.isCodeLine_iff, ih]
          constructor
          · rintro ⟨c, cs, ⟨hr, rfl⟩, ⟨hrows, rfl⟩, rfl⟩
            refine ⟨fun r' hr' => ?_, rfl⟩
            rcases List.mem_cons.mp hr' with heq | hr'
            · cases heq
              exact hr
            · exact hrows r' hr'
          · rintro ⟨hrows, rfl⟩
            exact ⟨_, _, ⟨hrows r List.mem_cons_self, rfl⟩,
              ⟨fun r' hr' => hrows r' (List.mem_cons_of_mem _ hr'), rfl⟩, rfl⟩

theorem Place.isFrame_iff (p : Place) {origin : Option String} {f : Frame} :
    IsFrame origin p.toSection f ↔ p.Legible ∧ f = p.frame := by
  obtain ⟨file, line, label, code⟩ := f
  simp only [IsFrame, toSection, p.splitLocation_eq_ok_iff, forall₂_isCodeLine_iff, Legible,
    AllCode, frame, Frame.mk.injEq]
  constructor
  · rintro ⟨_, _, ⟨hline, rfl, rfl⟩, rfl, rfl, rfl, hrows, rfl⟩
    exact ⟨⟨hline, hrows⟩, by simp [p.file_ne_nil]⟩
  · rintro ⟨⟨hline, hrows⟩, rfl, rfl, rfl, rfl⟩
    exact ⟨p.file, p.line, ⟨hline, rfl, rfl⟩, by simp [p.file_ne_nil], rfl, rfl, hrows, rfl⟩

theorem forall₂_isFrame_iff {origin : Option String} {ps : List Place} {fs : List Frame} :
    List.Forall₂ (IsFrame origin) (ps.map Place.toSection) fs ↔
      (∀ p ∈ ps, p.Legible) ∧ fs = ps.map Place.frame := by
  rw [List.forall₂_map_left_iff]
  simp only [Place.isFrame_iff]
  induction ps generalizing fs with
  | nil => simp
  | cons p ps ih =>
      rw [List.forall₂_cons_left_iff]
      simp only [ih, List.forall_mem_cons, List.map_cons]
      constructor
      · rintro ⟨_, _, ⟨hp, rfl⟩, ⟨hps, rfl⟩, rfl⟩
        exact ⟨⟨hp, hps⟩, rfl⟩
      · rintro ⟨⟨hp, hps⟩, rfl⟩
        exact ⟨_, _, ⟨hp, rfl⟩, ⟨hps, rfl⟩, rfl⟩

/-- **A report that quotes no arrow is read if and only if its numbers can be, and then as what it
says.** -/
theorem Report.read_iff {r : Report} (h : r.ArrowFree) {raw : List Char}
    (hraw : Text.lines raw = r.lines) {origin : Option String} {t : Traceback} :
    read origin raw = .ok t ↔ r.Legible ∧ t = r.traceback := by
  have hcut := hraw ▸ r.isCut h
  have hne : r.places.map Place.toSection ≠ [] := by simpa using r.places_ne_nil
  have hlines : (Text.lines raw).map Line.read =
      .header ("error".toList ++ r.tag) r.message ::
        (r.places.flatMap Place.lines).map Line.read := by
    rw [hraw, lines, List.map_cons, r.read_header]
  have hreads : read origin raw = .ok t ↔ Reads origin raw t := ⟨reads_of_read, read_of_reads⟩
  rw [hreads, reads_iff_of_isCut hcut hne, forall₂_isFrame_iff, hlines, traceback_eq_iff,
    headingKind_header, headingMessage_header, traceback_kind, traceback_message,
    traceback_frames, Legible]
  constructor
  · rintro ⟨⟨hlegible, hframes⟩, hkind, hmessage⟩
    exact ⟨hlegible, hkind, hmessage, hframes⟩
  · rintro ⟨hlegible, hkind, hmessage, hframes⟩
    exact ⟨⟨hlegible, hframes⟩, hkind, hmessage⟩

theorem normalize_translate (origin : Option String) (raw : String) :
    normalize .translate origin raw = read origin raw.toList := rfl

/-- **Reading undoes printing.** Whether the text ends in a line feed makes no difference. -/
theorem normalize_print (r : Report) (hlegible : r.Legible) (hfree : r.ArrowFree)
    (origin : Option String) :
    normalize .translate origin r.print = .ok r.traceback ∧
      normalize .translate origin (r.print ++ "\n") = .ok r.traceback := by
  rw [normalize_translate, normalize_translate]
  exact ⟨(r.read_iff hfree r.lines_print).mpr ⟨hlegible, rfl⟩,
    (r.read_iff hfree r.lines_print_newline).mpr ⟨hlegible, rfl⟩⟩

namespace Sample

/-- Code with blanks at both of its ends. -/
def code : CodeRow where
  pad := [' ']
  number := 3
  quote := ⟨"\tled.On()  ".toList, by decide +kernel⟩
  isPad := by decide

def marks : Decoration where
  pad := "   ".toList
  mark := '|'
  rest := "\t^^^ declared nowhere".toList
  isPad := by decide +kernel
  mark_eq := .inl rfl
  unbroken := by decide +kernel
  arrowFree := by decide +kernel

/-- A place in a file whose name looks like a location itself. -/
def place : Place where
  file := "C:/my lamp.go:12".toList
  line := 3
  column := 9
  rows := [.decoration marks, .code code, .decoration marks]
  file_ne_nil := by decide +kernel
  file_trimmed := by decide +kernel
  file_unbroken := by decide +kernel
  file_head := by decide +kernel

def report : Report where
  tag := "[E7]".toList
  message := "unknown name".toList
  places := [place, { place with line := 10 }]
  isTag := by decide +kernel
  message_trimmed := by decide +kernel
  message_unbroken := by decide +kernel
  places_ne_nil := List.cons_ne_nil _ _

theorem forall_code {P : CodeRow → Prop} (h : P code) : ∀ p ∈ report.places, p.AllCode P := by
  have hrows : ∀ p ∈ report.places,
      p.rows = [.decoration marks, .code code, .decoration marks] := by
    intro p hp
    rcases List.mem_cons.mp hp with rfl | hp
    · rfl
    · rw [List.mem_singleton.mp hp]
      rfl
  intro p hp c hc
  rw [hrows p hp] at hc
  simp only [List.mem_cons, reduceCtorEq, Row.code.injEq, List.not_mem_nil, or_false,
    false_or] at hc
  rwa [hc]

theorem legible : report.Legible := by
  have hline : ∀ p ∈ report.places, p.line ≤ 10 := by decide
  have hcode : code.number < 10 ^ maxDigits := Text.lt_pow_maxDigits (by decide)
  intro p hp
  refine ⟨Text.lt_pow_maxDigits (Nat.le_trans (hline p hp) (by decide)), ?_⟩
  exact forall_code (P := fun c => c.number < 10 ^ maxDigits) hcode p hp

theorem arrowFree : report.ArrowFree := by
  have hcode : code.quote.ArrowFree := by decide +kernel
  exact forall_code hcode

end Sample

/-- Two places in one file, each with its code. -/
theorem normalize_print_sample : Sample.report.Legible ∧ Sample.report.ArrowFree ∧
    normalize .translate none Sample.report.print = .ok Sample.report.traceback ∧
    Sample.report.traceback.frames.map (fun f => (f.file, f.line, f.code)) =
      [("C:/my lamp.go:12", 3, [⟨3, "\tled.On()  ", true⟩]),
        ("C:/my lamp.go:12", 10, [⟨3, "\tled.On()  ", false⟩])] :=
  ⟨Sample.legible, Sample.arrowFree,
    (normalize_print Sample.report Sample.legible Sample.arrowFree none).1, by decide +kernel⟩

end SketchBuild.Diagnostic.Translator
