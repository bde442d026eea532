import SketchBuild.CommandLine.Run
import SketchBuild.Proofs.StartRefusal
import SketchBuild.Proofs.Tool.Interrupted

/-!
# Interrupts of the commands

Whatever the command line asks for, it ends at the first program whose wait is interrupted, after
the process tree of that program has been torn down. The commands that work on a project end with
an exit code then; the others let the interrupt through (`heeds_run`).
-/

namespace SketchBuild

/-! ## Actions in commands -/

section Lift

variable {α : Type} {y : Action α}

theorem Heeds.lift (h : Heeds .interrupted y) :
    Heeds (.fault .interrupted) (liftM y : Command α) := by
  intro w
  have hrun := h w
  cases hr : y w with
  | ok a w' =>
      rw [hr] at hrun
      rw [Command.lift_of_ok hr]
      exact hrun
  | error f w' =>
      rw [hr] at hrun
      rw [Command.lift_of_error hr]
      exact hrun.imp_right (And.imp_left (congrArg Stop.fault))

theorem Command.Silent.heeds {x : Command α} (h : Silent x) (e : Stop) : Heeds e x := by
  intro w
  have ht := h w
  rw [Command.after] at ht
  cases hr : x w with
  | ok a w' =>
      rw [hr] at ht
      exact Undisturbed.of_trail ht
  | error s w' =>
      rw [hr] at ht
      exact Or.inl (.of_trail ht)

end Lift

/-! ## Loading and saving -/

open SketchBuild.Action (Silent Shows)

theorem Action.silent_readJson (document : Document) (p : Path)
    (unreadable : Json.SyntaxError → Fault) : Silent (readJson document p unreadable) := by
  have htext : Silent (readText p) :=
    (Silent.ask _).bind fun _ => (Silent.ofExcept _ _).bind fun _ => .pure _
  refine htext.bind fun text => Silent.bind (x := Action.world) (fun w => .refl w) fun v => ?_
  split
  · exact .pure _
  · exact .throw _
  · exact .throw _
  · exact .throw _

namespace Settings

theorem silent_fileOr (given : Option Path) : Silent (fileOr given) := by
  cases given with
  | some p => exact .pure p
  | none =>
      refine Silent.bind (x := Action.world) (fun w => .refl w) fun v => ?_
      split
      · exact .pure _
      · exact .throw _

theorem silent_load (given : Option Path) : Silent (load given) := by
  refine (silent_fileOr given).bind fun p => (Silent.ask _).bind fun there => ?_
  split
  · exact .pure _
  · refine (Action.silent_readJson _ _ _).bind fun v => ?_
    split
    · exact .pure _
    · exact .throw _

theorem silent_save (s : Settings) (given : Option Path) : Silent (save s given) := by
  refine (silent_fileOr given).bind fun p => (Silent.changePartly _).bind fun _ => ?_
  refine Silent.bind (x := Action.world) (fun w => .refl w) fun v => ?_
  split
  · exact .throw _
  · exact (Silent.change _).bind fun _ => .pure _

end Settings

namespace Manifest

theorem silent_load (dir : Path) : Silent (load dir) := by
  refine (Silent.ask _).bind fun there => ?_
  dsimp only
  split
  · exact .throw _
  · exact (Action.silent_readJson _ _ _).bind fun v => .ofExcept _ _

theorem silent_find (start : Path) : Silent (find start) := by
  have hnearest : ∀ dirs, Silent (nearest? dirs) := by
    intro dirs
    induction dirs with
    | nil => exact .pure none
    | cons dir dirs ih =>
        refine (Silent.ask _).bind fun there => ?_
        split
        · exact .pure _
        · exact ih
  refine (Silent.ask _).bind fun top => (hnearest _).bind fun found => ?_
  split
  · exact .throw _
  · exact (silent_load _).bind fun _ => .pure _

end Manifest

theorem Upload.Uploader.heeds_deploy (u : Uploader) (o : Options) :
    Heeds .interrupted (u.deploy o) := by
  intro w
  have hrun : Heeded .interrupted w (u.upload o w) :=
    congruence_heeds.upload u.verbose u.verbose (fun _ => trivial) id (.inl rfl) w
  cases hr : u.upload o w with
  | ok result w' =>
      rw [deploy_of_ok hr]
      rw [hr] at hrun
      exact hrun
  | error f w' =>
      rw [deploy_of_error hr]
      rw [hr] at hrun
      rcases hrun with hcalm | ⟨rfl, hdisturbed⟩
      · cases hf : u.reported f with
        | ok result => exact hcalm
        | error f' => exact Or.inl hcalm
      · exact Or.inr ⟨rfl, hdisturbed⟩

namespace CommandLine

open Command (Silent)

/-! ## Commands that start nothing -/

theorem silent_shows {y : Action Unit} (h : Shows y) : Silent (liftM y : Command Unit) :=
  .lift h.silent

theorem silent_palette : Silent (liftM Console.palette : Command Palette) :=
  .lift fun w => .refl w

theorem silent_world : Silent (liftM Action.world : Command World) := .lift fun w => .refl w

theorem silent_error (title : String) (message : Text.Str) (hint : Option String) :
    Action.Silent (Console.error title message hint) := by
  cases message with
  | text message => exact (Console.shows_error title message hint).silent
  | torn ps hps =>
      intro w
      obtain ⟨e, w', hrun, hq⟩ := Console.error_of_torn title (Text.Str.isText_torn ps hps) hint w
      rw [Action.after_of_error hrun]
      exact hq.trail

theorem silent_success (message : Text.Str) : Action.Silent (Console.success message) := by
  refine Action.Silent.bind (x := Console.palette) (fun w => .refl w) fun c => ?_
  exact (Shows.print "").silent.bind fun _ => .printStr _

theorem silent_error_exit {α : Type} (title : String) (message : Text.Str) (hint : Option String)
    (code : Nat) :
    Silent (liftM (Console.error title message hint) >>= fun _ => Console.exit code : Command α) :=
  (Silent.lift (silent_error title message hint)).bind fun _ => .throw _

theorem silent_loadSettings : Silent loadSettings := by
  refine (Silent.lift (Settings.silent_load none)).tryCatch fun s => ?_
  split
  · exact silent_error_exit _ _ _ _
  · exact .throw _

theorem silent_loadProject (dir : Path) : Silent (loadProject dir) := by
  refine (Silent.lift (Manifest.silent_find dir)).tryCatch fun s => ?_
  split
  · exact silent_error_exit _ _ _ _
  · exact .throw _

theorem silent_requireDirectory (dir : Path) : Silent (Console.requireDirectory dir) := by
  refine silent_palette.bind fun c => (Silent.lift (.ask _)).bind fun there => ?_
  have hrest : Silent (liftM (Action.ask (·.isDirectory? dir)) >>= fun there =>
      if (!there) = true then
        liftM (Action.print s!"{c.red}✗ Error: Path is not a directory: {dir}{c.reset}") >>=
          fun _ => Console.exit 2
      else pure () : Command Unit) := by
    refine (Silent.lift (.ask _)).bind fun there => ?_
    split
    · exact (silent_shows (.print _)).bind fun _ => .throw _
    · exact .pure ()
  dsimp only
  split
  · exact (silent_shows (.print _)).bind fun _ => (Command.Silent.throw _).bind fun _ => hrest
  · exact hrest

theorem silent_reject (e : Rejection) : Silent (reject e) := by
  have hemit : ∀ e : Event, (∀ i, e ≠ .called i) → Shows (Action.emit e) :=
    fun e he w => ⟨_, rfl, .emit he⟩
  cases e with
  | help who => exact (silent_shows (hemit _ (by simp))).bind fun _ => .throw _
  | version => exact (silent_shows (.print _)).bind fun _ => .throw _
  | misuse who message =>
      refine (silent_shows (hemit _ (by simp))).bind fun _ => ?_
      exact (silent_shows (hemit _ (by simp))).bind fun _ => .throw _

theorem silent_finish (verbose : Bool) (s : Stop) : Silent (finish verbose s) := by
  unfold finish
  split
  · exact .throw _
  · refine silent_palette.bind fun c => (silent_shows (.print _)).bind fun _ => ?_
    exact (silent_shows (.print _)).bind fun _ => .throw _
  · refine (Silent.lift (silent_error _ _ _)).bind fun _ => ?_
    dsimp only
    split
    · refine (silent_shows (.print _)).bind fun _ => silent_world.bind fun w => ?_
      exact (silent_shows (.print _)).bind fun _ => .throw _
    · exact .throw _

theorem shows_verdict (v : Translator.Verdict) : Shows (showVerdict v) := by
  refine Console.shows_palette fun c => (Shows.print _).bind ?_
  exact (Shows.forM (fun _ => .print _) _).bind (Shows.forM (fun _ => .print _) _)

theorem shows_listBoards : Shows listBoards := by
  refine Console.shows_palette fun c => (Shows.print _).bind ((Shows.print _).bind ?_)
  refine (Shows.print _).bind ((Shows.print _).bind ((Shows.forM (fun _ => .print _) _).bind ?_))
  exact .print _

theorem silent_clean (dir : Path) : Silent (clean dir) := by
  refine (silent_loadProject dir).bind fun project => ?_
  refine Silent.bind (.lift ?_) fun target => Silent.bind (.lift ?_) fun there => ?_
  · unfold Build.joinSetting
    split
    · exact .pure _
    · exact .throw _
  · exact Action.silent_isThere target
  · split
    · exact (Silent.lift (.printStr _)).bind fun _ => .pure ()
    · refine (Silent.lift (.ofExcept _ _)).bind fun path => ?_
      exact (Silent.lift (.changePartly _)).bind fun _ => .lift (silent_success _)

theorem silent_config (action : ConfigAction) (key value : String) (settings : Settings) :
    Silent (config action key value settings) := by
  refine Silent.tryCatch (.lift ?_) fun s => ?_
  · cases action with
    | list =>
        refine Action.Silent.bind (fun w => .refl w) fun c => ?_
        refine (Settings.silent_fileOr none).bind fun file => ?_
        exact (Shows.print _).silent.bind fun _ => .forM (fun _ => .printStr _) _
    | get => exact (Action.Silent.ofExcept _ _).bind fun v => .printStr _
    | set =>
        refine (Action.Silent.ofExcept _ _).bind fun changed => ?_
        refine (Settings.silent_save _ _).bind fun p => ?_
        exact (Action.Silent.ofExcept _ _).bind fun now => silent_success _
  · split
    · exact silent_error_exit _ _ _ _
    · exact .throw _

/-! ## Commands that heed interrupts -/

/-- How a request ends whose program is interrupted. -/
def Request.interruptStop : Request → Stop
  | .build _ | .check _ | .upload _ => .exit 130
  | _ => .fault .interrupted

/-- To tell of an interrupt starts and ends nothing. -/
theorem interrupted_ends (w : World) :
    ∃ w', (Console.interrupted : Command Unit) w = .error (.exit 130) w' ∧ Trail w w' [] ∧
      Tool.Torn [] w w' := by
  let w₁ := w.emit (.printed ("" ++ "\n"))
  let w₂ := w₁.emit (.printed (s!"{w.palette.yellow}✗ Interrupted{w.palette.reset}" ++ "\n"))
  have hquiet : Quiet w w₂ := (Quiet.emit (by simp)).trans (.emit (by simp))
  refine ⟨w₂, rfl, hquiet.trail, _, List.append_assoc _ _ _, rfl⟩

theorem silent_reportBuilt (result : Build.Result) : Silent (reportBuilt result) := by
  refine (silent_shows (Shows.forM Console.shows_warning _)).bind fun _ => ?_
  refine (silent_shows (Console.shows_success _)).bind fun _ => ?_
  refine (silent_shows (.print _)).bind fun _ => (silent_shows (.print _)).bind fun _ => ?_
  have htime : Silent (liftM Action.world >>= fun w =>
      liftM (Action.print s!"Build time: {w.host.seconds}s") >>= fun _ => Console.exit 0 :
      Command Unit) :=
    silent_world.bind fun w => (silent_shows (.print _)).bind fun _ => .throw _
  dsimp only
  split
  · exact (silent_shows (.print _)).bind fun _ => htime
  · exact htime

theorem silent_reportFailed (e : Build.Error) : Silent (reportFailed e) := by
  have hend := silent_error_exit (α := Unit) "Build failed!" e.message e.hint 1
  unfold reportFailed
  split
  · exact (silent_shows (Console.shows_traceback _)).bind fun _ => hend
  · exact (silent_shows (Console.shows_traceback _)).bind fun _ => hend
  · exact hend

theorem silent_reportChecked (report : Check.Report) : Silent (reportChecked report) := by
  refine (Silent.lift (.printStr _)).bind fun _ => ?_
  refine (silent_shows (Shows.forM shows_verdict _)).bind fun _ => ?_
  dsimp only
  split
  · exact silent_error_exit _ _ _ _
  · exact (silent_shows (Console.shows_success _)).bind fun _ => .throw _

theorem silent_endCheck (verbose : Bool) (s : Stop) : Silent (endCheck verbose s) := by
  unfold endCheck
  split
  · exact silent_error_exit _ _ _ _
  · exact silent_finish verbose _

variable (dir : Path) (settings : Settings) (verbose : Bool)

theorem heeds_buildProject (r : BuildRequest) :
    Heeds (.fault .interrupted) (buildProject r dir settings verbose) := by
  refine ((silent_loadProject dir).heeds _).bind fun project => ?_
  exact (congruence_heeds.build settings (fun _ => trivial) (fun _ => trivial) id
    (fun _ _ _ => trivial) (.inl rfl) trivial).lift.bind
      fun result => (silent_reportBuilt result).heeds _

theorem heeds_build (r : BuildRequest) : Heeds (.exit 130) (build r dir settings verbose) := by
  refine ((silent_shows (.print _)).heeds _).bind fun _ => ?_
  refine ((silent_shows (.print _)).heeds _).bind fun _ => ?_
  refine (heeds_buildProject dir settings verbose r).tryCatch (fun s => ?_) interrupted_ends
  refine Command.Silent.heeds ?_ _
  unfold endBuild
  split
  · exact silent_reportFailed _
  · exact silent_finish verbose _

theorem heeds_check (r : CheckRequest) : Heeds (.exit 130) (check r dir settings verbose) := by
  have hproject : Heeds (.fault .interrupted) (checkProject r dir settings verbose) := by
    refine ((silent_loadProject dir).heeds _).bind fun project => ?_
    have hrun := congruence_heeds.check (fun _ => trivial) project.1 project.2 settings r.board
      verbose trivial
    exact hrun.lift.bind fun report => (silent_reportChecked report).heeds _
  exact hproject.tryCatch (fun s => (silent_endCheck verbose s).heeds _) interrupted_ends

theorem heeds_upload (r : UploadRequest) : Heeds (.exit 130) (upload r dir settings verbose) := by
  have hproject : Heeds (.fault .interrupted) (uploadProject r dir settings verbose) := by
    refine ((silent_loadProject dir).heeds _).bind fun project => ?_
    refine (Upload.Uploader.heeds_deploy _ _).lift.bind fun result => Command.Silent.heeds ?_ _
    have hend := silent_error_exit (α := Unit) "Upload failed!" result.message result.hint 1
    have htold : ∀ t, Silent (liftM (Console.traceback t) >>= fun _ =>
        liftM (Console.error "Upload failed!" result.message result.hint) >>=
          fun _ => (Console.exit 1 : Command Unit)) := by
      intro t
      exact (silent_shows (Console.shows_traceback t)).bind fun _ => hend
    dsimp only
    split
    · refine (Silent.lift (silent_success _)).bind fun _ => ?_
      refine (Command.Silent.throw _).bind fun _ => ?_
      split
      · exact htold _
      · exact hend
    · split
      · exact htold _
      · exact hend
  refine hproject.tryCatch (fun s => Command.Silent.heeds ?_ _) interrupted_ends
  exact silent_finish verbose _

theorem heeds_detectBoard : Heeds (.fault .interrupted) (detectBoard settings) := by
  refine ((silent_shows (.print _)).heeds _).bind fun _ => ?_
  refine Heeds.bind ?_ fun port => Command.Silent.heeds ?_ _
  · refine (congruence_heeds.detect false false settings).lift.tryCatch
      (fun s => Command.Silent.heeds ?_ _) fun w => ⟨w, rfl, .refl w, [], by simp, rfl⟩
    split
    · exact silent_error_exit _ _ _ _
    · exact silent_error_exit _ _ _ _
    · exact .throw _
  · split
    · exact silent_error_exit _ _ _ _
    · exact silent_shows (Console.shows_success _)

/-! ### The version -/

/-- What is made of a fault: a translator that does not tell its version is not detected. -/
def versionOf : Fault → Except Fault String
  | .build (.tool _) => .ok "(not detected)"
  | f => .error f

section Version

variable {settings : Settings} {w w' : World}

theorem translatorVersion_of_ok {told : String}
    (h : (Translator.ofSetting settings.coreBinary false).version w = .ok told w') :
    translatorVersion settings w = .ok told w' := by
  have hrun : ((Translator.ofSetting settings.coreBinary false).version >>= fun r =>
      (ExceptT.run (pure r) : Action (Except String String))) w = .ok (.ok told) w' :=
    Action.bind_of_ok h
  exact Action.bind_of_ok (Action.tryCatch_of_ok hrun)

theorem translatorVersion_of_error {f : Fault}
    (h : (Translator.ofSetting settings.coreBinary false).version w = .error f w') :
    translatorVersion settings w = Translator.endIn w' (versionOf f) := by
  have hrun : ((Translator.ofSetting settings.coreBinary false).version >>= fun r =>
      (ExceptT.run (pure r) : Action (Except String String))) w = .error f w' :=
    Action.bind_of_error h
  refine (Action.bind_congr (Action.tryCatch_of_error hrun)).trans ?_
  split
  · rfl
  · next hother =>
      have hversion : versionOf f = .error f := by
        rw [versionOf]
        assumption
      exact congrArg (Translator.endIn w') hversion.symm

theorem heeds_version (settings : Settings) : Heeds .interrupted (version settings) := by
  refine Heeds.bind (fun w => ?_) fun told =>
    ((Shows.print _).bind (.print _)).silent.heeds .interrupted
  have hrun : Heeded .interrupted w ((Translator.ofSetting settings.coreBinary false).version w) :=
    congruence_heeds.translatorVersion (fun _ => trivial) (fun _ => trivial) _ w
  cases hr : (Translator.ofSetting settings.coreBinary false).version w with
  | ok told w' =>
      rw [translatorVersion_of_ok hr]
      rw [hr] at hrun
      exact hrun
  | error f w' =>
      rw [translatorVersion_of_error hr]
      rw [hr] at hrun
      rcases hrun with hcalm | ⟨rfl, hdisturbed⟩
      · cases versionOf f with
        | ok told => exact hcalm
        | error f' => exact Or.inl hcalm
      · exact Or.inr ⟨rfl, hdisturbed⟩

end Version

/-! ## The command line -/

theorem heeds_perform (r : Request) (here : Path) :
    Heeds r.interruptStop (r.perform here settings verbose) := by
  cases r with
  | nothing => exact Heeds.pure ()
  | build r => exact heeds_build _ settings verbose r
  | check r => exact heeds_check _ settings verbose r
  | upload r => exact heeds_upload _ settings verbose r
  | boards detect =>
      cases detect with
      | true => exact heeds_detectBoard settings
      | false => exact (silent_shows shows_listBoards).heeds _
  | clean dir => exact (silent_clean _).heeds _
  | config action key value => exact (silent_config _ _ _ settings).heeds _
  | version => exact (heeds_version settings).lift

theorem heeds_requestRun (r : Request) (here : Path) : Heeds r.interruptStop (r.run here) := by
  refine (silent_loadSettings.heeds _).bind fun settings => ?_
  refine ((silent_shows (Console.shows_setColor _)).heeds _).bind fun _ => ?_
  refine ((silent_shows (Console.shows_setLogging _)).heeds _).bind fun _ => ?_
  dsimp only
  cases r.lacksKey with
  | some action =>
      have hreject := (silent_reject
        (.misuse none s!"config {action.word} requires a key")).heeds r.interruptStop
      split
      · exact ((silent_requireDirectory _).heeds _).bind fun _ => hreject
      · exact hreject
  | none =>
      have hperform := heeds_perform settings (r.verbose || settings.verbose.truthy) r here
      split
      · exact ((silent_requireDirectory _).heeds _).bind fun _ => hperform
      · exact hperform

theorem heeds_run {args : List String} {r : Request} (h : Request.parse args = .ok r) :
    Heeds r.interruptStop (run args) := by
  refine ((Silent.lift (.ask _)).heeds _).bind fun here => ?_
  rw [h]
  cases r with
  | nothing => exact (silent_reject _).heeds _
  | _ => exact heeds_requestRun _ here

end CommandLine

end SketchBuild
