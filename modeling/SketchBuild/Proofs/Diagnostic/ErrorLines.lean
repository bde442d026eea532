import SketchBuild.Proofs.Diagnostic.LineNumber
import SketchBuild.Proofs.Diagnostic.Recognition
import SketchBuild.Proofs.Diagnostic.Report

/-!
# Error lines of the compiler

An `Output` is what the compiler writes: error lines, each of an `Entry`, with any other rows
between them. What keeps the parts of an entry apart is part of its type; its message may hold the
marker again. Reading an output gives one frame for each entry:

    normalize_output : normalize .compile origin o.print = .ok o.traceback

and the same for every text that has the rows of `o` as its lines.
-/

namespace SketchBuild

namespace Text

/-- A separator that starts with two characters is found behind a text without these two. -/
theorem isFirstCut_of_not_infix {x y : Char} {sep before : List Char} (hxy : x ≠ y)
    (h : ¬ [x, y] <:+: before) (after : List Char) :
    IsFirstCut (x :: y :: sep) (before ++ x :: y :: sep ++ after) before after := by
  refine ⟨rfl, fun b a hcut => ?_⟩
  induction before generalizing b with
  | nil => exact Nat.zero_le _
  | cons z before ih =>
      obtain ⟨hstart, hrest⟩ := not_or.mp (mt List.infix_cons_iff.mpr h)
      cases b with
      | cons w b => exact Nat.succ_le_succ (ih hrest b (List.cons.inj hcut).2)
      | nil =>
          -- the separator would start inside the text or cover its last character
          obtain ⟨rfl, htail⟩ := List.cons.inj hcut
          cases before with
          | nil => exact absurd (List.cons.inj htail).1 hxy
          | cons w before =>
              obtain ⟨rfl, -⟩ := List.cons.inj htail
              exact absurd ⟨before, rfl⟩ hstart

theorem trim_toDigits (n : Nat) : trim (Nat.toDigits 10 n) = Nat.toDigits 10 n :=
  trim_eq_self (fun _ hc => isBlank_of_isDigit (isDigit_of_mem_toDigits (List.mem_of_head? hc)))
    fun _ hc => isBlank_of_isDigit (isDigit_of_mem_toDigits (List.mem_of_getLast? hc))

theorem not_mem_toDigits {c : Char} (h : isDigit c = false) (n : Nat) : c ∉ Nat.toDigits 10 n := by
  intro hc
  rw [isDigit_of_mem_toDigits hc] at h
  cases h

end Text

namespace Diagnostic.Compiler

open Text (isDigit isLetter trim maxDigits Unbroken)

/-- A colon belongs to the name of a file only behind a drive letter. -/
def IsFile (cs : List Char) : Prop :=
  ':' ∉ cs ∨ ∃ d c path, cs = d :: ':' :: c :: path ∧ isLetter d = true ∧ (c = '\\' ∨ c = '/') ∧
    ':' ∉ path

/-- In a name with a drive, the first colon is behind the letter and there is no other. -/
theorem IsFile.cases {cs : List Char} (h : IsFile cs) :
    ':' ∉ cs ∨ ∃ d c path, (∀ ds, cs ++ ds = [d] ++ ':' :: (c :: path ++ ds)) ∧ ':' ∉ [d] ∧
      ':' ∉ c :: path ∧ c ≠ ' ' ∧ (isLetter d && (c == '\\' || c == '/')) = true := by
  refine h.imp_right ?_
  rintro ⟨d, c, path, rfl, hd, hc, hpath⟩
  refine ⟨d, c, path, fun _ => rfl, ?_, ?_, ?_, ?_⟩
  · rw [List.mem_singleton]
    rintro rfl
    revert hd
    decide +kernel
  · rw [List.mem_cons]
    rintro (rfl | h)
    · exact absurd hc (by decide)
    · exact hpath h
  · rintro rfl
    exact absurd hc (by decide)
  · rw [hd]
    rcases hc with rfl | rfl <;> decide

/-- An error, as the compiler tells it. -/
structure Entry where
  file : List Char
  line : Nat
  column : Nat
  message : List Char
  isFile : IsFile file
  file_ne_nil : file ≠ []
  file_trimmed : trim file = file
  file_unbroken : Unbroken file
  line_lt : line < 10 ^ maxDigits
  message_trimmed : trim message = message
  message_unbroken : Unbroken message

/-- The line of an error, or a text that holds no marker. -/
inductive Row
  | error (e : Entry)
  | other (cs : List Char) (h : ¬ marker <:+: cs)

def Row.entry? : Row → Option Entry
  | .error e => some e
  | .other _ _ => none

/-- What the compiler writes if it fails. -/
structure Output where
  rows : List Row
  entries_ne_nil : rows.filterMap Row.entry? ≠ []

/-! ## Printing -/

def Entry.location (e : Entry) : List Char :=
  e.file ++ ':' :: Nat.toDigits 10 e.line ++ ':' :: Nat.toDigits 10 e.column

def Entry.print (e : Entry) : List Char := e.location ++ ": error: ".toList ++ e.message

def Row.print : Row → List Char
  | .error e => e.print
  | .other cs _ => cs

/-- The rows as a text. -/
def Output.print (o : Output) : String := "\n".intercalate (o.rows.map (String.ofList ·.print))

/-! ## What an output means -/

def Output.entries (o : Output) : List Entry := o.rows.filterMap Row.entry?

def Entry.frame (e : Entry) : Frame :=
  { file := String.ofList e.file, line := e.line, label := "compile"
    code := [⟨e.line, String.ofList e.message, true⟩] }

def Output.traceback (o : Output) : Traceback :=
  { kind := "CompileError"
    message := String.ofList (o.entries.head o.entries_ne_nil).message
    frames := o.entries.map Entry.frame
    frames_ne_nil := fun h => o.entries_ne_nil (List.map_eq_nil_iff.mp h) }

/-! ## Reading one line back -/

/-- In a location, no colon stands before a blank. -/
theorem Entry.not_infix_location (e : Entry) : ¬ [':', ' '] <:+: e.location := by
  have hcolon : ∀ n, ':' ∉ Nat.toDigits 10 n := Text.not_mem_toDigits (by decide +kernel)
  have hnumber : ∀ n cs, ¬ [':', ' '] <+: ':' :: (Nat.toDigits 10 n ++ cs) := by
    intro n cs h
    obtain ⟨d, ds, hds⟩ := List.exists_cons_of_ne_nil (Nat.toDigits_ne_nil (b := 10) (n := n))
    rw [hds, List.cons_append, List.cons_prefix_cons, List.cons_prefix_cons] at h
    have hdigit : isDigit d = true := Text.isDigit_of_mem_toDigits (hds ▸ List.mem_cons_self)
    rw [← h.2.1] at hdigit
    revert hdigit
    decide +kernel
  have hnumbers : ¬ [':', ' '] <:+:
      ':' :: (Nat.toDigits 10 e.line ++ ':' :: Nat.toDigits 10 e.column) := by
    rw [List.infix_cons_iff, Translator.infix_append_iff (hcolon _), List.infix_cons_iff]
    rintro (h | h | h)
    · exact hnumber _ _ h
    · exact hnumber e.column [] (by rwa [List.append_nil])
    · exact hcolon _ (h.subset List.mem_cons_self)
  rw [location, List.append_assoc, List.cons_append]
  rcases e.isFile.cases with hfile | ⟨d, c, path, hfile, hd, hpath, hblank, -⟩
  · rwa [Translator.infix_append_iff hfile]
  · rw [hfile, Translator.infix_append_iff hd, List.infix_cons_iff,
      Translator.infix_append_iff hpath]
    rintro (h | h)
    · exact hblank (List.cons_prefix_cons.mp (List.cons_prefix_cons.mp h).2).1.symm
    · exact hnumbers h

theorem Entry.trim_location (e : Entry) : trim e.location = e.location := by
  refine Translator.trim_append_number (by simp) (fun c hc => ?_)
    (Translator.isNumber_toDigits e.column)
  rw [List.head?_append_of_ne_nil _ e.file_ne_nil] at hc
  exact Text.isBlank_head_of_trim e.file_trimmed hc

/-- **The line of an error is cut into its location and its message**, even if the message holds the
marker again. -/
theorem Entry.errorLine?_print (e : Entry) : errorLine? e.print = some (e.location, e.message) := by
  have hcut : Text.cut? marker (e.location ++ marker ++ ' ' :: e.message) =
      some (e.location, ' ' :: e.message) :=
    Text.cut?_eq_some_iff.mpr
      (Text.isFirstCut_of_not_infix (by decide) e.not_infix_location (' ' :: e.message))
  have hprint : e.print = e.location ++ marker ++ ' ' :: e.message := by
    rw [print, show ": error: ".toList = marker ++ [' '] from rfl]
    simp
  rw [errorLine?, hprint, hcut, Option.map_some]
  dsimp only
  rw [e.trim_location, Text.trim_cons_of_blank rfl, e.message_trimmed]

/-- The fields of a location, with a drive letter put back, start with the file and the line. -/
theorem Entry.joinDrive_location (e : Entry) :
    joinDrive (Text.fields (· == ':') e.location) =
      [e.file, Nat.toDigits 10 e.line, Nat.toDigits 10 e.column] := by
  have hcolon : ∀ n, ':' ∉ Nat.toDigits 10 n := Text.not_mem_toDigits (by decide +kernel)
  have hnumbers : (Nat.toDigits 10 e.line ++ ':' :: Nat.toDigits 10 e.column).splitOn ':' =
      [Nat.toDigits 10 e.line, Nat.toDigits 10 e.column] := by
    rw [List.splitOn_append_cons_self_of_not_mem (hcolon _), List.splitOn_eq_singleton (hcolon _)]
  rw [Text.fields_eq_splitOn, location, List.append_assoc, List.cons_append]
  rcases e.isFile.cases with hfile | ⟨d, c, path, hfile, hd, hpath, -, hdrive⟩
  · rw [List.splitOn_append_cons_self_of_not_mem hfile, hnumbers, joinDrive.eq_def]
    split
    · next d c path rest hfields =>
        -- a file of one letter is no drive, for a digit follows
        have hline : Nat.toDigits 10 e.line = c :: path := by
          injection hfields with _ hfields
          injection hfields
        have hc : isDigit c = true := Text.isDigit_of_mem_toDigits (hline ▸ List.mem_cons_self)
        have hslash : (c == '\\' || c == '/') = false := by
          rw [Bool.or_eq_false_iff, beq_eq_false_iff_ne, beq_eq_false_iff_ne]
          constructor <;> rintro rfl <;> revert hc <;> decide +kernel
        rw [hslash, Bool.and_false, if_neg Bool.false_ne_true, hfields]
    · rfl
  · rw [hfile, List.splitOn_append_cons_self_of_not_mem hd,
      List.splitOn_append_cons_self_of_not_mem hpath, hnumbers, joinDrive, if_pos hdrive]
    have hname : e.file = d :: ':' :: c :: path := by simpa using hfile []
    rw [hname]

theorem Entry.frame_location (e : Entry) : Compiler.frame e.location e.message = e.frame := by
  have hline : Text.readInt? (trim (Nat.toDigits 10 e.line)) = some (e.line : Int) := by
    rw [Text.readInt?_of_isNumber, Text.trim_toDigits, Text.digitsValue_toDigits]
    · rw [Text.trim_toDigits]
      exact Translator.isNumber_toDigits e.line
    · rw [Text.trim_toDigits]
      exact Text.length_toDigits_le_maxDigits.mpr e.line_lt
  have hsplit : splitLocation e.location = (e.file, (e.line : Int)) := by
    rw [splitLocation, e.joinDrive_location]
    dsimp only
    rw [hline]
    rfl
  rw [Compiler.frame, hsplit]
  rfl

/-! ## Reading an output back -/

theorem Entry.unbroken_print (e : Entry) : Unbroken e.print := by
  have hcolon : ∀ n, Unbroken (':' :: Nat.toDigits 10 n) := by
    intro n c hc
    rcases List.mem_cons.mp hc with rfl | hc
    · decide
    · exact Translator.unbroken_toDigits n c hc
  exact (((e.file_unbroken.append (hcolon _)).append (hcolon _)).append
    (by decide +kernel)).append e.message_unbroken

/-- What is read in the line of an entry. -/
def Entry.parts (e : Entry) : List Char × List Char := (e.location, e.message)

theorem Row.errorLine?_print (r : Row) : errorLine? r.print = r.entry?.map Entry.parts := by
  cases r with
  | error e => exact e.errorLine?_print
  | other cs h => exact errorLine?_eq_none_iff.mpr h

/-- A row is read on its own as it is among others. -/
theorem Row.errorLines_print (r : Row) :
    errorLines r.print = (r.entry?.map Entry.parts).toList := by
  cases r with
  | error e =>
      have hlines : Text.lines e.print = [e.print] :=
        Text.lines_of_unbroken e.unbroken_print (by simp [Entry.print])
      rw [print, errorLines, hlines, List.filterMap_cons, e.errorLine?_print]
      rfl
  | other cs h =>
      refine errorLines_eq_nil_iff.mpr fun l hl hmarker => ?_
      exact h (hmarker.trans (Text.infix_of_mem_lines hl))

/-- A line feed keeps the error lines before and after it apart. -/
theorem errorLines_append_newline (cs ds : List Char) :
    errorLines (cs ++ '\n' :: ds) = errorLines cs ++ errorLines ds :=
  Text.gather_append_newline rfl cs ds

/-- **Rows that are joined are read one after the other.** -/
theorem errorLines_intercalate (rows : List Row) :
    errorLines (['\n'].intercalate (rows.map Row.print)) =
      (rows.filterMap Row.entry?).map Entry.parts := by
  induction rows with
  | nil => rfl
  | cons r rows ih =>
      have hrow : ((r :: rows).filterMap Row.entry?).map Entry.parts =
          errorLines r.print ++ (rows.filterMap Row.entry?).map Entry.parts := by
        rw [r.errorLines_print, List.filterMap_cons]
        cases r.entry? <;> rfl
      rw [hrow, ← ih]
      cases rows with
      | nil =>
          rw [List.map_singleton, List.intercalate_singleton]
          exact (List.append_nil _).symm
      | cons r' rows =>
          rw [List.map_cons, List.map_cons, List.intercalate_cons_cons, List.append_assoc,
            List.singleton_append, errorLines_append_newline]

theorem Output.toList_print (o : Output) :
    o.print.toList = ['\n'].intercalate (o.rows.map Row.print) := by
  rw [print, String.toList_intercalate, List.map_map]
  simp [Function.comp_def]

/-- An output is known by its error lines. -/
theorem Output.read_of_errorLines (o : Output) (origin : Option String) {raw : List Char}
    (h : errorLines raw = o.entries.map Entry.parts) : read origin raw = o.traceback := by
  obtain ⟨e, es, hentries⟩ := List.exists_cons_of_ne_nil o.entries_ne_nil
  have hentries : o.entries = e :: es := hentries
  rw [read, h, hentries]
  simp only [List.map_cons, Entry.parts, Entry.frame_location, List.map_map, traceback, hentries,
    List.head_cons, Function.comp_def]
  rfl

/-- **Reading undoes printing.** Each entry becomes a frame, in order, and all other rows are passed
over. Any text with these lines is read so, however its lines are ended. -/
theorem normalize_output (o : Output) (origin : Option String) :
    normalize .compile origin o.print = .ok o.traceback ∧
      normalize .compile origin (o.print ++ "\n") = .ok o.traceback ∧
      ∀ raw : String, Text.lines raw.toList = o.rows.map Row.print →
        normalize .compile origin raw = .ok o.traceback := by
  have hprint : errorLines o.print.toList = o.entries.map Entry.parts := by
    rw [o.toList_print, errorLines_intercalate, Output.entries]
  refine ⟨?_, ?_, fun raw hraw => ?_⟩
  · exact congrArg _ (o.read_of_errorLines origin hprint)
  · refine congrArg _ (o.read_of_errorLines origin ?_)
    rw [String.toList_append]
    exact (errorLines_append_newline _ []).trans ((List.append_nil _).trans hprint)
  · refine congrArg _ (o.read_of_errorLines origin ?_)
    rw [errorLines, hraw, List.filterMap_map, Output.entries, List.map_filterMap]
    exact congrArg₂ _ (funext Row.errorLine?_print) rfl

namespace OutputSample

/-- An error in a file on a drive. -/
def drive : Entry where
  file := "C:\\my lamp\\main.cpp".toList
  line := 14
  column := 5
  message := "'Delay' was not declared".toList
  isFile := .inr ⟨'C', '\\', "my lamp\\main.cpp".toList, rfl, rfl, .inl rfl, by decide +kernel⟩
  file_ne_nil := by decide +kernel
  file_trimmed := by decide +kernel
  file_unbroken := by decide +kernel
  line_lt := Text.lt_pow_maxDigits (by decide)
  message_trimmed := by decide +kernel
  message_unbroken := by decide +kernel

/-- An error in a file of one letter, whose message quotes an error. -/
def letter : Entry where
  file := ['m']
  line := 0
  column := 7
  message := "unexpected b:1:2: error: c".toList
  isFile := .inl (by decide +kernel)
  file_ne_nil := List.cons_ne_nil _ _
  file_trimmed := by decide +kernel
  file_unbroken := by decide +kernel
  line_lt := Text.lt_pow_maxDigits (by decide)
  message_trimmed := by decide +kernel
  message_unbroken := by decide +kernel

/-- Errors among a warning and an empty line. -/
def output : Output where
  rows := [.other "a:3:1: warning: unused".toList (by decide +kernel), .error letter,
    .other [] (by decide), .error drive]
  entries_ne_nil := List.cons_ne_nil _ _

/-- The output as a text in which two characters end a line. -/
def text : String :=
  String.ofList ((output.rows.map fun r => r.print ++ ['\r', '\n']).flatten)

end OutputSample

/-- A warning is passed over, and the lines may be ended in any way. -/
theorem normalize_output_sample :
    Text.lines OutputSample.text.toList = OutputSample.output.rows.map Row.print ∧
    normalize .compile none OutputSample.text = .ok OutputSample.output.traceback ∧
    OutputSample.output.traceback.message = "unexpected b:1:2: error: c" ∧
    OutputSample.output.traceback.frames =
      [⟨"m", 0, "compile", [⟨0, "unexpected b:1:2: error: c", true⟩]⟩,
        ⟨"C:\\my lamp\\main.cpp", 14, "compile", [⟨14, "'Delay' was not declared", true⟩]⟩] := by
  have hlines : Text.lines OutputSample.text.toList = OutputSample.output.rows.map Row.print := by
    rw [OutputSample.text, String.toList_ofList]
    decide +kernel
  exact ⟨hlines, (normalize_output OutputSample.output none).2.2 _ hlines, by decide +kernel,
    by decide +kernel⟩

end Diagnostic.Compiler

end SketchBuild
