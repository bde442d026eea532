import SketchBuild.Proofs.Build.Warnings
import SketchBuild.Proofs.CommandLine.Clean
import SketchBuild.Proofs.Congruence
import SketchBuild.Proofs.Trace

/-!
# Warnings of a build

The warnings that the translator gives are kept until the build is done, and are printed then, in
the order of the sources. A build that stops has nothing to print them with: of what the translator
warned of before, nothing is told. `build_tells_warnings` says which builds print their warnings.
-/

namespace SketchBuild

open SketchBuild.Action

/-! ## Lines of warnings -/

namespace Palette

/-- The line of a warning. -/
def warningLine (c : Palette) (message : String) : String :=
  c.yellow ++ "⚠ " ++ message ++ c.reset

/-- The text begins as the line of a warning does. -/
def Marks (c : Palette) (text : String) : Prop := (c.yellow ++ "⚠ ").toList <+: text.toList

/-- How the lines begin that tell how a command ended. -/
def titles (c : Palette) : List String := [c.red ++ "✗ ", c.green ++ "✓ ", c.yellow ++ "✗ "]

theorem marks_warningLine (c : Palette) (message rest : String) :
    c.Marks (c.warningLine message ++ rest) := by
  rw [Marks, warningLine]
  simp [List.append_assoc]

variable (color : Bool)

/-- A warning begins with its mark, or with the code of a colour. -/
theorem not_marks_of_head? {text : String} {first : Char} (h : text.toList.head? = some first)
    (hfirst : first ∉ ['⚠', '\x1b']) : ¬ (of color).Marks text := by
  obtain ⟨rest, htext⟩ := List.head?_eq_some_iff.mp h
  obtain ⟨hmark, hcode⟩ : first ≠ '⚠' ∧ first ≠ '\x1b' := by simpa using hfirst
  rw [Marks, htext]
  cases color with
  | false => simp [of, plain, hmark.symm]
  | true => simp [of, ansi, hcode.symm]

end Palette

/-! ## What is printed -/

namespace Event

/-- The event of a printed line. -/
def line (text : String) : Event := .printed (text ++ "\n")

/-- The event of a printed warning. -/
def warning (c : Palette) (message : String) : Event := line (c.warningLine message)

/-- What is printed looks like a warning. -/
def IsWarning (c : Palette) : Event → Prop
  | .printed text => c.Marks text
  | _ => False

theorem not_isWarning_line (w : World) {text : String} (first : Char)
    (h : (text ++ "\n").toList.head? = some first) (hfirst : first ∉ ['⚠', '\x1b']) :
    ¬ (line text).IsWarning w.palette := by
  obtain ⟨color, hcolor⟩ := w.palette_eq_of
  rw [hcolor]
  exact Palette.not_marks_of_head? color h hfirst

theorem not_isWarning_gap (w : World) : ¬ (line "").IsWarning w.palette :=
  not_isWarning_line w '\n' (by simp) (by decide)

theorem not_isWarning_margin (w : World) (text : String) :
    ¬ (line ("  " ++ text)).IsWarning w.palette :=
  not_isWarning_line w ' ' (by simp) (by decide)

/-- How a command ended is told by a line that does not look like a warning either. -/
theorem not_isWarning_title (w v : World) {start : String} (h : start ∈ v.palette.titles)
    (text : String) : ¬ (line (start ++ text ++ v.palette.reset)).IsWarning w.palette := by
  obtain ⟨color, hcolor⟩ := w.palette_eq_of
  obtain ⟨color', hcolor'⟩ := v.palette_eq_of
  rw [hcolor'] at h ⊢
  rw [hcolor]
  simp only [Palette.titles, List.mem_cons, List.not_mem_nil, or_false] at h
  rcases h with rfl | rfl | rfl
  all_goals
    cases color <;> cases color' <;>
      simp [IsWarning, line, Palette.Marks, Palette.of, Palette.ansi, Palette.plain]

theorem isWarning_warning (c : Palette) (message : String) : (warning c message).IsWarning c :=
  c.marks_warningLine message "\n"

end Event

/-- The world in which some more has been told. -/
def World.note (w : World) (es : List Event) : World := { w with trace := w.trace ++ es }

theorem World.note_nil (w : World) : w.note [] = w := by
  rw [note, List.append_nil]

theorem World.note_note (w : World) (es es' : List Event) :
    (w.note es).note es' = w.note (es ++ es') := by
  rw [note, note, note, List.append_assoc]

/-- The action tells some events that satisfy `Q`, and does nothing else. -/
def Utters (Q : Event → Prop) (x : Action Unit) : Prop :=
  ∀ w, ∃ es, x w = .ok () (w.note es) ∧ ∀ e ∈ es, Q e

namespace Utters

open Event (line)

variable {Q : Event → Prop} {x y : Action Unit}

theorem print {text : String} (h : Q (line text)) : Utters Q (Action.print text) :=
  fun _ => ⟨[line text], rfl, by simpa using h⟩

theorem bind (hx : Utters Q x) (hy : Utters Q y) : Utters Q (x >>= fun _ => y) := by
  intro w
  obtain ⟨es, hrun, hes⟩ := hx w
  obtain ⟨es', hrun', hes'⟩ := hy (w.note es)
  rw [World.note_note] at hrun'
  refine ⟨es ++ es', (bind_of_ok hrun).trans hrun', fun e he => ?_⟩
  rcases List.mem_append.mp he with he | he
  · exact hes e he
  · exact hes' e he

theorem palette_bind {f : Palette → Action Unit} (h : ∀ v : World, Utters Q (f v.palette)) :
    Utters Q (Console.palette >>= f) :=
  fun w => h w w

theorem ite_bind (c : Prop) [Decidable c] (hx : Utters Q x) (hy : Utters Q y) :
    Utters Q (if c then x >>= fun _ => y else y) := by
  split
  · exact hx.bind hy
  · exact hy

/-- What is told after a first event. -/
theorem follow (hx : Utters Q x) (w : World) (e : Event) :
    ∃ es, x (w.note [e]) = .ok () (w.note (e :: es)) ∧ ∀ e' ∈ es, Q e' := by
  obtain ⟨es, hrun, hes⟩ := hx (w.note [e])
  rw [World.note_note] at hrun
  exact ⟨es, hrun, hes⟩

end Utters

namespace Console

open Event (line)

/-- What is told of one thing after the other. -/
theorem forM_note {ι : Type} {f : ι → Action Unit} (told : Palette → ι → List Event)
    (h : ∀ i w, f i w = .ok () (w.note (told w.palette i))) (is : List ι) (w : World) :
    is.forM f w = .ok () (w.note (is.flatMap (told w.palette))) := by
  induction is generalizing w with
  | nil =>
      rw [List.flatMap_nil, World.note_nil]
      rfl
  | cons i is ih =>
      have hrest := ih (w.note (told w.palette i))
      rw [World.note_note] at hrest
      exact (bind_of_ok (h i w)).trans hrest

theorem warnings_apply (messages : List String) (w : World) :
    warnings messages w = .ok () (w.note (messages.map (.warning w.palette))) := by
  rw [List.map_eq_flatMap]
  exact forM_note (fun c message => [.warning c message]) (fun _ _ => rfl) messages w

/-- The line with the title of an error. -/
def errorTitle (c : Palette) (title : String) : Event := line (c.red ++ "✗ " ++ title ++ c.reset)

/-- An error is told after an empty line. -/
theorem error_apply {Q : Event → Prop} (title message : String) {w : World} (hgap : Q (line ""))
    (htitle : Q (errorTitle w.palette title)) (hmessage : Q (line message))
    (hhint : ∀ s, Q (line ("  " ++ s))) (hint : Option String) :
    ∃ es, error title message hint w = .ok () (w.note (line "" :: es)) ∧ ∀ e ∈ es, Q e := by
  have hgap : Utters Q gap := .print hgap
  unfold error
  rw [bind_of_ok (rfl : palette w = .ok w.palette w),
    bind_of_ok (rfl : gap w = .ok () (w.note [line ""]))]
  refine Utters.follow ((Utters.print htitle).bind (hgap.bind ?_)) w (line "")
  dsimp only
  rw [printStr_text]
  refine .ite_bind _ (.print hmessage) ?_
  cases hint with
  | none => exact hgap
  | some h =>
      refine .ite_bind _ (.print ?_) hgap
      have hline := hhint (w.palette.cyan ++ "Hint:" ++ w.palette.reset ++ " " ++ h)
      simp only [← String.append_assoc] at hline
      exact hline

/-- Of an error with a torn message, the title is told. -/
theorem error_note_of_torn (title : String) {message : Text.Str} (h : message.isText = false)
    (hint : Option String) (w : World) :
    ∃ e, error title message hint w =
      .error (.pieces e) (w.note [line "", errorTitle w.palette title, line ""]) := by
  obtain ⟨e, hprint⟩ := printStr_of_torn h
  have hne : (!message.isEmpty) = true := by rw [Text.Str.isEmpty_of_torn h, Bool.not_false]
  refine ⟨e, ?_⟩
  rw [error, hprint, bind_of_ok (rfl : palette w = .ok w.palette w),
    bind_of_ok (rfl : gap w = .ok () (w.note [line ""])), if_pos hne]
  show EStateM.Result.error (Fault.pieces e)
    (((w.note [line ""]).note [errorTitle w.palette title]).note [line ""]) = _
  rw [World.note_note, World.note_note]
  rfl

end Console

/-! ## What a build prints -/

/-- Events that satisfy `Q` were added, and the console is as it was. -/
structure Speaks (Q : Event → Prop) (w w' : World) : Prop where
  grows : Grows Q w w'
  palette : w'.palette = w.palette
  host : w'.host = w.host

namespace Speaks

variable {Q : Event → Prop} {u v w : World}

theorem refl (w : World) : Speaks Q w w := ⟨.refl w, rfl, rfl⟩

theorem trans (h : Speaks Q u v) (h' : Speaks Q v w) : Speaks Q u w :=
  ⟨h.grows.trans h'.grows, h'.palette.trans h.palette, h'.host.trans h.host⟩

theorem emit {e : Event} (h : Q e) (w : World) : Speaks Q w (w.emit e) := ⟨.emit h w, rfl, rfl⟩

theorem record (h : ∀ e, e.IsRecord → Q e) (level : Level) (message : Text.Str) (w : World) :
    Speaks Q w (w.record level message) := by
  refine ⟨.record h level message w, ?_, ?_⟩
  all_goals
    unfold World.record
    split
    · rfl
    · split <;> rfl

end Speaks

/-- Events that are no printed texts. -/
def Event.IsUnprinted : Event → Prop
  | .printed _ => False
  | _ => True

section Congruence

variable {Q : Event → Prop} (hQ : ∀ e : Event, e.IsUnprinted → Q e)

include hQ

theorem leaves_log (level : Level) (message : Text.Str) :
    Leaves (Speaks Q) (log level message) := by
  intro w
  refine .record (fun e he => hQ e ?_) level message w
  cases e with
  | printed text => cases he
  | _ => trivial

theorem leaves_start {i : Tool.Invocation} (hi : i.argv ≠ []) :
    Leaves (Speaks Q) (Tool.start i) := by
  intro w
  have hstarted : Speaks Q w (Tool.started w i) :=
    ⟨⟨[.called i], rfl, by simpa using hQ (.called i) trivial⟩, rfl, rfl⟩
  cases hout : (w.response i).outcome with
  | error r => rwa [after_of_error (Tool.start_of_error hi hout)]
  | ok q => rwa [after_of_ok (Tool.start_of_ok hi hout)]

theorem leaves_teardown (table : ProcessTable) (pid seconds : Int) :
    Leaves (Speaks Q) (Tool.teardown table pid seconds) := by
  have hnote : ∀ e, Leaves (Speaks Q) (Tool.noteTeardown e) := by
    intro e
    refine .bind .trans (fun w => .emit (hQ (.process e) trivial) w) fun _ => ?_
    split
    · exact leaves_log hQ _ _
    · exact Speaks.refl
  have hall : ∀ es : List ProcessInfo.Event, Leaves (Speaks Q) (es.forM Tool.noteTeardown) := by
    intro es
    induction es with
    | nil => exact Speaks.refl
    | cons e es ih => exact .bind .trans (hnote e) fun _ => ih
  exact .bind .trans (hall _) fun _ => Speaks.refl

theorem leaves_run {command : List Text.Str} (hcommand : command ≠ []) (cwd : Option Path)
    (merge : Bool) : Leaves (Speaks Q) (Tool.run command cwd merge) := by
  refine .bind .trans (leaves_log hQ _ _) fun _ => ?_
  cases hwords : Text.Str.words command with
  | error e => exact Speaks.refl
  | ok argv =>
  show Leaves (Speaks Q) (Tool.start ⟨argv, cwd.map Path.toString, merge⟩ >>= _)
  refine .bind .trans (leaves_start hQ (Text.Str.ne_nil_of_words hwords hcommand)) fun q => ?_
  split
  · refine .bind .trans (leaves_log hQ _ _) fun _ => ?_
    exact .bind .trans (leaves_teardown hQ _ _ _) fun _ => Speaks.refl
  · exact .bind .trans (leaves_log hQ _ _) fun _ => Speaks.refl

/-- To print nothing but what satisfies `Q` is kept when actions are put together. -/
theorem congruence_speaks :
    Action.Congruence (fun text => Q (.line text)) (fun _ => True)
      (fun {α} (x _ : Action α) => Leaves (Speaks Q) x) where
  told _ := trivial
  pure a := Speaks.refl
  throw _ := Speaks.refl
  bind h hfg := .bind .trans h hfg
  tryCatch h hg _ := by
    refine .tryCatch .trans h fun f => ?_
    obtain ⟨f', hf, -⟩ := hg f trivial
    rw [hf]
    exact Speaks.refl
  ask question := .of_eq .refl (after_ask question)
  change operation := .change .refl (fun w d => ⟨.of_trace rfl, rfl, rfl⟩) operation
  changePartly operation := .changePartly (fun w d => ⟨.of_trace rfl, rfl, rfl⟩) operation
  findSetting setting := .of_eq .refl (Tool.after_findSetting setting)
  log level message := leaves_log hQ level message
  mention h _ := by
    intro w
    split
    · next hc => exact .emit (h hc) w
    · exact .refl w
  run hne _ cwd merge := leaves_run hQ hne cwd merge

end Congruence

/-- What a build prints is no warning, unless it is what the compiler told. -/
theorem Build.Builder.leaves_build (settings : Settings) (verbose : Bool) (r : Request)
    (v : World) :
    Action.Leaves (Speaks fun e => e.IsWarning v.palette → r.compile = true ∧ verbose = true)
      ((ofSettings settings verbose).build r) := by
  have hunprinted : ∀ e : Event, e.IsUnprinted → e.IsWarning v.palette →
      r.compile = true ∧ verbose = true := by
    intro e he hw
    cases e with
    | printed text => cases he
    | _ => cases hw
  refine (congruence_speaks hunprinted).build settings (fun s hw => ?_) (fun s hw => ?_) id
    (fun s hc hv _ => ⟨hc, hv⟩) (.inl rfl) trivial
  · exact absurd hw (Event.not_isWarning_margin v s)
  · exact absurd hw (Event.not_isWarning_line v '[' (by simp) (by decide))

/-! ## The build command -/

/-- The command tells some events that satisfy `Q`, and ends with an exit code. -/
def Command.Ends (Q : Event → Prop) (code : Nat) (x : Command Unit) : Prop :=
  ∀ w, ∃ es, x w = .error (.exit code) (w.note es) ∧ ∀ e ∈ es, Q e

section Ends

variable {Q : Event → Prop} {code : Nat}

theorem Command.Ends.exit : Ends Q code (Console.exit code) := by
  intro w
  refine ⟨[], ?_, by simp⟩
  rw [World.note_nil]
  rfl

theorem Command.Ends.bind {y : Action Unit} {k : Command Unit} (hy : Utters Q y)
    (hk : Ends Q code k) : Ends Q code (liftM y >>= fun _ => k) := by
  intro w
  obtain ⟨es, hrun, hes⟩ := hy w
  obtain ⟨es', hrun', hes'⟩ := hk (w.note es)
  rw [World.note_note] at hrun'
  refine ⟨es ++ es', (bind_of_ok (lift_of_ok hrun)).trans hrun', fun e he => ?_⟩
  rcases List.mem_append.mp he with he | he
  · exact hes e he
  · exact hes' e he

end Ends

namespace CommandLine

open Event (line)
open Command (lift_of_ok lift_of_error)

/-- The world in which the build command has told its name. -/
def greeted (w : World) : World := w.note [line s!"godotino v{programVersion}", line ""]

/-- A build that is done tells its warnings, and then what was made. -/
theorem reportBuilt_apply (result : Build.Result) (w : World) :
    ∃ report, reportBuilt result w =
        .error (.exit 0) (w.note (result.warnings.map (.warning w.palette) ++ report)) ∧
      ∀ e ∈ report, ¬ e.IsWarning w.palette := by
  let Q := fun e : Event => ¬ e.IsWarning w.palette
  have hgap : Utters Q Console.gap :=
    .print (Event.not_isWarning_gap w)
  have hsuccess : Utters Q (Console.success "Build finished!") :=
    .palette_bind fun v => hgap.bind (.print
      (Event.not_isWarning_title w v (.tail _ (.head _)) _))
  have htime : Command.Ends Q 0 (liftM Action.world >>= fun v =>
      liftM (Action.print s!"Build time: {v.host.seconds}s") >>= fun _ => Console.exit 0) := by
    intro v
    refine Command.Ends.bind (.print ?_) .exit v
    exact Event.not_isWarning_line w 'B' (by simp; rfl) (by decide)
  have hfirmware : ∀ p : Path, Command.Ends Q 0 (liftM (Action.print s!"Firmware: {p}") >>= fun _ =>
      liftM Action.world >>= fun v =>
        liftM (Action.print s!"Build time: {v.host.seconds}s") >>= fun _ => Console.exit 0) := by
    intro p
    refine .bind (.print ?_) htime
    exact Event.not_isWarning_line w 'F' (by simp; rfl) (by decide)
  have hrest : ∀ x : Command Unit, Command.Ends Q 0 x →
      ∃ report, (liftM (Console.warnings result.warnings) >>= fun _ =>
          liftM (Console.success "Build finished!") >>= fun _ => liftM Console.gap >>= fun _ =>
          liftM (Action.print s!"Sketch: {result.sketchDir}") >>= fun _ => x) w =
        .error (.exit 0) (w.note (result.warnings.map (.warning w.palette) ++ report)) ∧
      ∀ e ∈ report, Q e := by
    intro x hx
    have hsketch : Utters Q (Action.print s!"Sketch: {result.sketchDir}") :=
      .print (Event.not_isWarning_line w 'S' (by simp; rfl) (by decide))
    obtain ⟨report, hrun, hreport⟩ := Command.Ends.bind hsuccess (.bind hgap (.bind hsketch hx))
      (w.note (result.warnings.map (.warning w.palette)))
    rw [World.note_note] at hrun
    refine ⟨report, ?_, hreport⟩
    rw [Command.bind_of_ok (lift_of_ok (Console.warnings_apply _ _))]
    exact hrun
  rw [reportBuilt]
  cases result.firmware with
  | some p => exact hrest _ (hfirmware p)
  | none => exact hrest _ htime

/-- The event tells the wording of a fault. -/
def Words (message : Text.Str) (e : Event) : Prop := ∃ text, message = .text text ∧ e = line text

/-- The console tells of an error what it can, and the command ends. -/
theorem error_exit_apply {Q : Event → Prop} (title : String) (message : Text.Str)
    (hint : Option String) {w : World} (hgap : Q (line ""))
    (htitle : Q (Console.errorTitle w.palette title))
    (hmessage : ∀ text, message = .text text → Q (line text)) (hhint : ∀ s, Q (line ("  " ++ s))) :
    ∃ s es, s ≠ .exit 0 ∧
      (liftM (Console.error title message hint) >>= fun _ => Console.exit 1 : Command Unit) w =
        .error s (w.note (line "" :: es)) ∧ ∀ e ∈ es, Q e := by
  cases message with
  | text text =>
      obtain ⟨es, hrun, hes⟩ :=
        Console.error_apply title text hgap htitle (hmessage text rfl) hhint hint
      exact ⟨.exit 1, es, by simp, Command.bind_of_ok (lift_of_ok hrun), hes⟩
  | torn ps hps =>
      obtain ⟨e, hrun⟩ := Console.error_note_of_torn title (Text.Str.isText_torn ps hps) hint w
      exact ⟨.fault (.pieces e), [Console.errorTitle w.palette title, line ""], by simp,
        Command.bind_of_error (lift_of_error hrun), by simp [htitle, hgap]⟩

/-- A build that failed is reported without a warning, unless the failure reads like one. -/
theorem reportFailed_apply (e : Build.Error) (w : World) :
    ∃ s first es, s ≠ .exit 0 ∧ reportFailed e w = .error s (w.note (first :: es)) ∧
      ¬ first.IsWarning w.palette ∧ ∀ e' ∈ es, e'.IsWarning w.palette → Words e.message e' := by
  let Q := fun e' : Event => e'.IsWarning w.palette → Words e.message e'
  have hgap : ¬ (line "").IsWarning w.palette := Event.not_isWarning_gap w
  have herror : ∀ v, v.palette = w.palette → ∃ s es, s ≠ .exit 0 ∧
      (liftM (Console.error "Build failed!" e.message e.hint) >>= fun _ => Console.exit 1 :
        Command Unit) v = .error s (v.note (line "" :: es)) ∧ ∀ e' ∈ es, Q e' := by
    intro v hv
    exact error_exit_apply (Q := Q) (w := v) "Build failed!" e.message e.hint
      (fun h => absurd h hgap)
      (fun h => absurd h (Event.not_isWarning_title w v (.head _) _))
      (fun text htext _ => ⟨text, htext, rfl⟩)
      (fun s h => absurd h (Event.not_isWarning_margin w s))
  have htraceback : ∀ t, ∃ s first es, s ≠ .exit 0 ∧
      (liftM (Console.traceback t) >>= fun _ =>
        liftM (Console.error "Build failed!" e.message e.hint) >>= fun _ => Console.exit 1 :
        Command Unit) w = .error s (w.note (first :: es)) ∧
      ¬ first.IsWarning w.palette ∧ ∀ e' ∈ es, Q e' := by
    intro t
    let shown : Event := .complained (t.render w.palette ++ "\n")
    have hshown : Console.traceback t w = .ok () (w.note [shown]) := rfl
    obtain ⟨s, es, hs, hrun, hes⟩ := herror (w.note [shown]) rfl
    rw [World.note_note] at hrun
    refine ⟨s, shown, line "" :: es, hs, (Command.bind_of_ok (lift_of_ok hshown)).trans hrun, id,
      ?_⟩
    intro e' he'
    rcases List.mem_cons.mp he' with rfl | he'
    · exact fun h => absurd h hgap
    · exact hes e' he'
  unfold reportFailed
  split
  · exact htraceback _
  · exact htraceback _
  · obtain ⟨s, es, hs, hrun, hes⟩ := herror w rfl
    exact ⟨s, line "", es, hs, hrun, hgap, hes⟩

/-- The names of faults are words. -/
theorem exists_name_head? (f : Fault) :
    ∃ first, f.name.toList.head? = some first ∧ first ∉ ['⚠', '\x1b'] := by
  cases f with
  | file e => cases he : e.refusal <;> simp [Fault.name, he, Fault.refusalName]
  | build e => cases e <;> simp [Fault.name, Fault.buildName]
  | kind e => cases e <;> simp [Fault.name]
  | _ => simp [Fault.name]

/-- What is told of a fault is no warning, unless the stack that is shown reads like one. -/
def Plain (verbose : Bool) (w : World) (e : Event) : Prop :=
  e.IsWarning w.palette → verbose = true ∧ e = line w.host.stack

theorem unexpected_apply (verbose : Bool) (f : Fault) (w : World) :
    ∃ s es, s ≠ .exit 0 ∧ (Console.unexpected f.name f.message verbose : Command Unit) w =
        .error s (w.note (line "" :: es)) ∧ ∀ e ∈ es, Plain verbose w e := by
  obtain ⟨first, hhead, hfirst⟩ := exists_name_head? f
  have hgap : Plain verbose w (line "") := fun h => absurd h (Event.not_isWarning_gap w)
  have htitle : Plain verbose w (Console.errorTitle w.palette "Unexpected error") :=
    fun h => absurd h (Event.not_isWarning_title w w (.head _) _)
  unfold Console.unexpected
  cases hmessage : f.message with
  | torn ps hps =>
      have htorn : (s!"{f.name}: " ++ Text.Str.torn ps hps).isText = false := by simp
      obtain ⟨e, hrun⟩ := Console.error_note_of_torn "Unexpected error" htorn none w
      exact ⟨.fault (.pieces e), [Console.errorTitle w.palette "Unexpected error", line ""],
        by simp, Command.bind_of_error (lift_of_error hrun), by simp [htitle, hgap]⟩
  | text message =>
      have hplain : ¬ (line (f.name ++ ": " ++ message)).IsWarning w.palette :=
        Event.not_isWarning_line w first (by simp [hhead]) hfirst
      obtain ⟨es, hrun, hes⟩ := Console.error_apply (Q := Plain verbose w) "Unexpected error"
        (f.name ++ ": " ++ message) hgap htitle (fun h => absurd h hplain)
        (fun s h => absurd h (Event.not_isWarning_margin w s)) none
      have herror := lift_of_ok hrun
      cases verbose with
      | false => exact ⟨.exit 1, es, by simp, Command.bind_of_ok herror, hes⟩
      | true =>
          refine ⟨.exit 1, es ++ [line "Traceback:", line w.host.stack], by simp, ?_,
            fun e he => ?_⟩
          · refine (Command.bind_of_ok herror).trans ?_
            show EStateM.Result.error (Stop.exit 1)
              (((w.note (line "" :: es)).note [line "Traceback:"]).note [line w.host.stack]) = _
            rw [World.note_note, World.note_note]
            rfl
          · rcases List.mem_append.mp he with he | he
            · exact hes e he
            · simp only [List.mem_cons, List.not_mem_nil, or_false] at he
              rcases he with rfl | rfl
              · exact fun h => absurd h (Event.not_isWarning_line w 'T' (by simp) (by decide))
              · exact fun _ => ⟨rfl, rfl⟩

/-- Any fault but that of a build ends the command without success. -/
theorem finish_apply (verbose : Bool) (f : Fault) (w : World) :
    ∃ s es, s ≠ .exit 0 ∧ finish verbose (.fault f) w = .error s (w.note (line "" :: es)) ∧
      ∀ e ∈ es, Plain verbose w e := by
  have hother := unexpected_apply verbose f w
  cases f with
  | interrupted =>
      let c := w.palette
      let shown := line (c.yellow ++ "✗ Interrupted" ++ c.reset)
      have hshown : ¬ shown.IsWarning c := by
        have hsplit : c.yellow ++ "✗ Interrupted" = c.yellow ++ "✗ " ++ "Interrupted" := by
          rw [String.append_assoc]
          rfl
        show ¬ (line (c.yellow ++ "✗ Interrupted" ++ c.reset)).IsWarning c
        rw [hsplit]
        exact Event.not_isWarning_title w w (.tail _ (.tail _ (.head _))) _
      refine ⟨.exit 130, [shown], by simp, ?_, fun e he => ?_⟩
      · show EStateM.Result.error (Stop.exit 130) ((w.note [line ""]).note [shown]) = _
        rw [World.note_note]
        rfl
      · rw [List.mem_singleton.mp he]
        exact fun h => absurd h hshown
  | _ => exact hother

section Builds

variable {r : BuildRequest} {dir root : Path} {settings : Settings} {verbose : Bool}
  {m : Manifest} {w w₁ : World}

/-- The build command tells its name, and then builds. -/
theorem build_apply (r : BuildRequest) (dir : Path) (settings : Settings) (verbose : Bool)
    (w : World) : build r dir settings verbose w =
      tryCatch (buildProject r dir settings verbose) (endBuild verbose) (greeted w) := by
  let name := line s!"godotino v{programVersion}"
  have hname : (liftM (Action.print s!"godotino v{programVersion}") : Command Unit) w =
      .ok () (w.note [name]) := rfl
  have hgap : (liftM Console.gap : Command Unit) (w.note [name]) =
      .ok () ((w.note [name]).note [line ""]) := rfl
  rw [World.note_note] at hgap
  rw [build, Command.bind_of_ok hname, Command.bind_of_ok hgap]
  rfl

/-- A project that is found is built. -/
theorem buildProject_apply (hfind : Manifest.find dir w = .ok (root, m) w) :
    buildProject r dir settings verbose w =
      (liftM ((Build.Builder.ofSettings settings verbose).build (r.forProject root m)) >>=
        reportBuilt) w := by
  rw [buildProject, Command.bind_of_ok (loadProject_of_find hfind)]

theorem build_of_ok {result : Build.Result}
    (hfind : Manifest.find dir (greeted w) = .ok (root, m) (greeted w))
    (hbuild : (Build.Builder.ofSettings settings verbose).build (r.forProject root m) (greeted w) =
      .ok result w₁) :
    ∃ report, build r dir settings verbose w =
        .error (.exit 0) (w₁.note (result.warnings.map (.warning w₁.palette) ++ report)) ∧
      ∀ e ∈ report, ¬ e.IsWarning w₁.palette := by
  obtain ⟨report, hrun, hreport⟩ := reportBuilt_apply result w₁
  have hproject := (buildProject_apply hfind).trans
    ((Command.bind_of_ok (lift_of_ok hbuild)).trans hrun)
  refine ⟨report, ?_, hreport⟩
  rw [build_apply, Command.tryCatch_of_error hproject]
  rfl

theorem build_of_error {f : Fault}
    (hfind : Manifest.find dir (greeted w) = .ok (root, m) (greeted w))
    (hbuild : (Build.Builder.ofSettings settings verbose).build (r.forProject root m) (greeted w) =
      .error f w₁) :
    ∃ s first es, s ≠ .exit 0 ∧
      build r dir settings verbose w = .error s (w₁.note (first :: es)) ∧
      ¬ first.IsWarning w₁.palette ∧
      ∀ e ∈ es, e.IsWarning w₁.palette →
        Words f.message e ∨ verbose = true ∧ e = line w₁.host.stack := by
  have hproject : buildProject r dir settings verbose (greeted w) = .error (.fault f) w₁ := by
    rw [buildProject_apply hfind]
    exact Command.bind_of_error (lift_of_error hbuild)
  rw [build_apply, Command.tryCatch_of_error hproject]
  have hother : ∃ s first es, s ≠ .exit 0 ∧
      finish verbose (.fault f) w₁ = .error s (w₁.note (first :: es)) ∧
      ¬ first.IsWarning w₁.palette ∧
      ∀ e ∈ es, e.IsWarning w₁.palette →
        Words f.message e ∨ verbose = true ∧ e = line w₁.host.stack := by
    obtain ⟨s, es, hs, hrun, hes⟩ := finish_apply verbose f w₁
    exact ⟨s, line "", es, hs, hrun, Event.not_isWarning_gap w₁,
      fun e he h => Or.inr (hes e he h)⟩
  cases f with
  | build e =>
      obtain ⟨s, first, es, hs, hrun, hfirst, hes⟩ := reportFailed_apply e w₁
      exact ⟨s, first, es, hs, hrun, hfirst, fun e' he' h => Or.inl (hes e' he' h)⟩
  | _ => exact hother

/-- The events begin with the warnings, in order, and none of these is told again. -/
def Tells (c : Palette) (lines : List String) (told : List Event) : Prop :=
  ∃ rest, told = lines.map (.warning c) ++ rest ∧ ∀ l ∈ lines, Event.warning c l ∉ rest

theorem Tells.eq_nil {c : Palette} {lines : List String} {first : Event} {es : List Event}
    (h : Tells c lines (first :: es)) (hfirst : ¬ first.IsWarning c) : lines = [] := by
  obtain ⟨rest, heq, -⟩ := h
  cases lines with
  | nil => rfl
  | cons l lines =>
      cases heq
      exact absurd (Event.isWarning_warning c l) hfirst

/-- What a build command started and told. `runs` are the runs of the translator, after which only
the compiler is started; `shown` is told while the project is built, and `told` afterwards. -/
structure Narrates (b : Build.Builder) (q : Build.Request) (w w' : World)
    (runs : List Tool.Start) (shown told : List Event) : Prop where
  past : ∃ tail, w'.past = w.past ++ (runs ++ tail) ∧
    ∀ s ∈ tail, ∃ board, s.invocation = b.compilation q board
  translations : runs.map (·.invocation) <+: (q.foundSources w.disk).map (b.translation q)
  built : ((b.build q).after (greeted w)).trace = w.trace ++ shown
  trace : w'.trace = w.trace ++ (shown ++ told)
  /-- While it builds, the command prints no warning, unless what the compiler told reads like
  one. -/
  shown_plain : ∀ e ∈ shown, e.IsWarning w.palette → q.compile = true ∧ b.verbose = true

section Told

variable (r : BuildRequest) (settings : Settings) (verbose : Bool)

/-- While a project is built, the console stays as it is. -/
theorem speaks_build (root : Path) (m : Manifest) (w : World) :
    Speaks (fun e => e.IsWarning w.palette → r.compile = true ∧ verbose = true) w
      (((Build.Builder.ofSettings settings verbose).build (r.forProject root m)).after
        (greeted w)) := by
  have hname : ¬ (line s!"godotino v{programVersion}").IsWarning w.palette :=
    Event.not_isWarning_line w 'g' rfl (by decide)
  have hgreeted : Speaks (fun e => e.IsWarning w.palette → r.compile = true ∧ verbose = true) w
      (greeted w) := by
    refine ⟨⟨_, rfl, fun e he h => ?_⟩, rfl, rfl⟩
    simp only [List.mem_cons, List.not_mem_nil, or_false] at he
    rcases he with rfl | rfl
    · exact absurd h hname
    · exact absurd h (Event.not_isWarning_gap w)
  exact hgreeted.trans
    (Build.Builder.leaves_build settings verbose (r.forProject root m) w (greeted w))

theorem exists_narrates (root : Path) (m : Manifest) {w w' : World} {told : List Event}
    (h : w' = (((Build.Builder.ofSettings settings verbose).build (r.forProject root m)).after
      (greeted w)).note told) :
    ∃ runs shown, Narrates (.ofSettings settings verbose) (r.forProject root m) w w' runs shown
        told ∧
      ∀ result v, (Build.Builder.ofSettings settings verbose).build (r.forProject root m)
        (greeted w) = .ok result v → result.warnings = Tool.collected w.tools w.past runs := by
  obtain ⟨runs, tail, htrail, hinv, htail, hwarn⟩ :=
    (Build.Builder.ofSettings settings verbose).build_collects (r.forProject root m) (greeted w)
  obtain ⟨⟨shown, htrace, hshown⟩, -, -⟩ := speaks_build r settings verbose root m w
  refine ⟨runs, shown, ⟨⟨tail, ?_, htail⟩, hinv, htrace, ?_, hshown⟩, hwarn⟩
  · rw [h]
    exact htrail.past
  · rw [h, World.note, htrace, List.append_assoc]

end Told

/-- **Which builds print their warnings.** What the translator warned of is printed when the build
is done, each warning once and in the order of the sources, exactly if the command ends with exit
code zero or there was no warning. After a build that stopped, nothing that is printed looks like a
warning, except for the message of the fault and, if the command is verbose, the stack. -/
theorem build_tells_warnings (r : BuildRequest) (settings : Settings) (verbose : Bool)
    (hfind : Manifest.find dir w = .ok (root, m) w) :
    let x := build r dir settings verbose
    let b := Build.Builder.ofSettings settings verbose
    let q := r.forProject root m
    ∃ runs shown told, Narrates b q w (x.after w) runs shown told ∧
      (Tells w.palette (Tool.collected w.tools w.past runs) told ↔
        (∃ w', x w = .error (.exit 0) w') ∨ Tool.collected w.tools w.past runs = []) ∧
      ∀ f w', b.build q (greeted w) = .error f w' → ∀ e ∈ told, e.IsWarning w.palette →
        Words f.message e ∨ verbose = true ∧ e = line w.host.stack := by
  intro x b q
  have hfind' := ((Manifest.reads_find dir) w (greeted w) (root, m) w rfl rfl hfind).2
  obtain ⟨-, hcolor, hhost⟩ := speaks_build r settings verbose root m w
  cases hb : b.build q (greeted w) with
  | ok result w₁ =>
      have hw₁ : (b.build q).after (greeted w) = w₁ := after_of_ok hb
      have hpalette : w₁.palette = w.palette := by
        rw [← hw₁]
        exact hcolor
      obtain ⟨report, hrun, hreport⟩ := build_of_ok hfind' hb
      rw [hpalette] at hrun hreport
      have hafter : x.after w = w₁.note _ := Command.after_of_error hrun
      obtain ⟨runs, shown, hnarrates, hwarn⟩ :=
        exists_narrates r settings verbose root m (hafter.trans (by rw [← hw₁]))
      refine ⟨runs, shown, _, hnarrates, iff_of_true ⟨report, ?_, fun l _ hmem => ?_⟩
        (.inl ⟨_, hrun⟩), fun f w' hf => ?_⟩
      · rw [hwarn result w₁ hb]
      · exact hreport _ hmem (Event.isWarning_warning _ l)
      · cases hf
  | error f w₁ =>
      have hw₁ : (b.build q).after (greeted w) = w₁ := after_of_error hb
      have hpalette : w₁.palette = w.palette := by
        rw [← hw₁]
        exact hcolor
      have hstack : w₁.host = w.host := by
        rw [← hw₁]
        exact hhost
      obtain ⟨s, first, es, hs, hrun, hfirst, hes⟩ := build_of_error hfind' hb
      rw [hpalette] at hfirst hes
      rw [hstack] at hes
      have hafter : x.after w = w₁.note _ := Command.after_of_error hrun
      obtain ⟨runs, shown, hnarrates, -⟩ :=
        exists_narrates r settings verbose root m (hafter.trans (by rw [← hw₁]))
      refine ⟨runs, shown, _, hnarrates, ⟨fun h => .inr (h.eq_nil hfirst), ?_⟩, ?_⟩
      · rintro (⟨w', hexit⟩ | hnil)
        · cases hrun.symm.trans hexit
          exact absurd rfl hs
        · rw [hnil]
          exact ⟨first :: es, rfl, by simp⟩
      · intro f' w' hf e he h
        cases hf
        rcases List.mem_cons.mp he with rfl | he
        · exact absurd h hfirst
        · exact hes e he h

end Builds

/-! ## A sample

The translator warns and succeeds. The compiler ends with a given exit code. -/

namespace WarningSample

def message : String := "main.go:3: warning: unused pin"

def tools (code : Int) : Tool.Tools := fun _ i d =>
  if i.merge then ⟨d.tree, .ok ⟨1, .empty, .exited code [] []⟩⟩
  else
    let d' := (d.writeFile (.ofString (i.argv.getD 2 "")) []).toOption.getD d
    ⟨d'.tree, .ok ⟨1, .empty, .exited 0 [] (Text.Utf8.encode message.toList)⟩⟩

def entries : List (Location × Entry) :=
  CleanSample.entries "build" ++ [(["q", "core"], .file [] true)]

def world (code : Int) : World :=
  { CleanSample.world "build" with
    disk := ⟨.ofList entries, ⟨[], 0⟩, rfl⟩
    tools := tools code }

def settings : Settings := { coreBinary := .text "/q/core" }

def request : BuildRequest := { compile := true }

/-- The build command. -/
def command : Command Unit := build request CleanSample.project settings false

/-- The exit code of the command. -/
def exitCode? (code : Int) : Option Nat :=
  match command (world code) with
  | .error (.exit n) _ => some n
  | _ => none

def printed? : Event → Option String
  | .printed text => some text
  | _ => none

/-- What the command prints. -/
def output (code : Int) : List String := (command.after (world code)).trace.filterMap printed?

/-- What the first program of the command warned of. -/
def collected (code : Int) : List String :=
  Tool.collected (tools code) [] ((command.after (world code)).past.take 1)

theorem exists_exit_of_exitCode? (code : Int) {n : Nat} (h : exitCode? code = some n) :
    ∃ w', command (world code) = .error (.exit n) w' := by
  unfold exitCode? at h
  split at h
  · next heq =>
      cases h
      exact ⟨_, heq⟩
  · cases h

theorem exists_find (w : World)
    (h : ((Manifest.find CleanSample.project).value? w).map (·.1) = some CleanSample.project) :
    ∃ m, Manifest.find CleanSample.project w = .ok (CleanSample.project, m) w := by
  obtain ⟨⟨root, m⟩, hvalue, rfl⟩ := Option.map_eq_some_iff.mp h
  have hfind := Action.value?_eq_some_iff.mp hvalue
  rw [(Manifest.find_eq_ok hfind).1] at hfind
  exact ⟨m, hfind⟩

end WarningSample

open WarningSample in
/-- A build that succeeds prints the warning. -/
theorem build_tells_warnings_succeeded :
    (∃ m runs shown told, Narrates (.ofSettings settings false)
        (request.forProject CleanSample.project m) (world 0) (command.after (world 0)) runs shown
        told ∧ Tells (world 0).palette (Tool.collected (tools 0) [] runs) told) ∧
      collected 0 = [message] ∧
      output 0 = ["godotino v0.1.0\n", "\n", "  main.go  ->  main.cpp\n",
        "\x1b[1;33m⚠ main.go:3: warning: unused pin\x1b[0m\n", "\n",
        "\x1b[1;32m✓ Build finished!\x1b[0m\n", "\n", "Sketch: /p/build/p\n",
        "Build time: s\n"] := by
  obtain ⟨m, hfind⟩ := exists_find (world 0) (by decide +kernel)
  -- one evaluation of the command for all that is read off it
  have heval : exitCode? 0 = some 0 ∧ collected 0 = [message] ∧
      output 0 = ["godotino v0.1.0\n", "\n", "  main.go  ->  main.cpp\n",
        "\x1b[1;33m⚠ main.go:3: warning: unused pin\x1b[0m\n", "\n",
        "\x1b[1;32m✓ Build finished!\x1b[0m\n", "\n", "Sketch: /p/build/p\n",
        "Build time: s\n"] := by
    decide +kernel
  obtain ⟨hcode, hrest⟩ := heval
  have hexit := exists_exit_of_exitCode? 0 hcode
  obtain ⟨runs, shown, told, hnarrates, htells, -⟩ :=
    build_tells_warnings request settings false hfind
  exact ⟨⟨m, runs, shown, told, hnarrates, htells.mpr (.inl hexit)⟩, hrest⟩

open WarningSample in
/-- If the compiler fails, the warning is not printed. -/
theorem failed_compilation_drops_warnings :
    exitCode? 1 = some 1 ∧ collected 1 = [message] ∧
      (world 1).palette.warningLine message ++ "\n" ∉ output 1 ∧
      output 1 = ["godotino v0.1.0\n", "\n", "  main.go  ->  main.cpp\n", "\n",
        "\x1b[1;31m✗ Build failed!\x1b[0m\n", "\n", "arduino-cli compile failed\n", "\n"] := by
  decide +kernel

end CommandLine

end SketchBuild
