import SketchBuild.Check
import SketchBuild.Proofs.Build.Calls
import SketchBuild.Proofs.Tool.Refused
import SketchBuild.Upload.Run

/-! # What becomes of a tool that cannot be started

Programs are started in five places: to translate, to check, to compile, to list the boards and to
upload. At each of them a program that is not found is reported the way the stage reports its
failures: builds and checks stop with a `Build.Error`, an upload gives a result without success. Any
other refusal goes through as the system's own fault (`refusal_reported_iff`). -/

namespace SketchBuild

open SketchBuild.Action SketchBuild.Tool

/-! ## Steps that start nothing -/

theorem Build.Builder.silent_prepare (b : Builder) (r : Request) : Silent (b.prepare r) := by
  intro w
  rcases prepare_cases b r w with ⟨w', -, hprep, ht, -⟩ | ⟨-, f, w', hprep, ht⟩
  · rw [after_of_ok hprep]
    exact ht
  · rw [after_of_error hprep]
    exact ht

theorem Compiler.silent_findFirmware (dir : Path) : Silent (findFirmware dir) := by
  intro w
  rw [after_findFirmware]
  exact .refl w

/-! ## The translator and the compiler -/

/-- How builds and checks tell of a refusal: a program that is not found is a missing tool. -/
inductive Build.TellsRefusal (s : Start) : Refusal → Fault → Prop
  | missing (e : ToolFault) : TellsRefusal s .notFound (.build (.tool e))
  | other {r : Refusal} (h : r ≠ .notFound) : TellsRefusal s r (s.refusalFault r)

open Build (TellsRefusal)

theorem Build.stopsAtRefusal_tool {command : List Text.Str} (cwd : Option Path) (merge : Bool)
    (h : command ≠ []) (e : ToolFault) :
    StopsAtRefusal TellsRefusal (tryCatch (Tool.run command cwd merge) fun
      | .file ⟨.notFound, _⟩ => throw (.build (.tool e))
      | f => throw f) := by
  refine (Tool.stopsAtRefusal_run cwd merge h).tryCatch (fun f => ?_) ?_
  · split <;> exact .throw _
  · rintro s r _ rfl
    cases r with
    | notFound => exact ⟨_, .missing e, rfl⟩
    | _ => exact ⟨_, .other nofun, rfl⟩

open Build (stopsAtRefusal_tool)

namespace Translator

theorem stopsAtRefusal_run (t : Translator) {command : List Json} (h : command ≠ []) :
    StopsAtRefusal TellsRefusal (t.run command) := by
  refine (StopsAtRefusal.of_silent (silent_spell _)).bind fun spelled => ?_
  refine StopsAtRefusal.ite_bind (.printStr _) _ ?_
  refine (StopsAtRefusal.of_silent (Shows.log _ _).silent).bind fun _ => ?_
  exact stopsAtRefusal_tool none false (by simpa using h) _

theorem stopsAtRefusal_translate (t : Translator) (source output : Path) (board : Json)
    (sourceMap : Bool) :
    StopsAtRefusal TellsRefusal (t.translate source output board sourceMap) := by
  refine (t.stopsAtRefusal_run (by simp [command])).bind fun o => ?_
  split
  · exact .of_silent ((Silent.ofExcept _ _).bind fun _ => .throw _)
  · exact .of_silent (.pure _)

theorem stopsAtRefusal_check (t : Translator) (source : Path) (board : Json) :
    StopsAtRefusal TellsRefusal (t.check source board) :=
  (t.stopsAtRefusal_run (by simp [checkCommand])).bind fun _ => .of_silent (.pure _)

end Translator

namespace Compiler

theorem stopsAtRefusal_compile (c : Compiler) (sketch : Sketch.Checked) (fqbn : String)
    (buildPath : Path) : StopsAtRefusal TellsRefusal (c.compile sketch fqbn buildPath) := by
  have hrun : StopsAtRefusal TellsRefusal (c.run sketch fqbn buildPath) :=
    stopsAtRefusal_tool (some sketch.dir) true (by simp [command]) _
  refine (StopsAtRefusal.of_silent (.changePartly _)).bind fun _ => ?_
  refine (StopsAtRefusal.of_silent (.ask _)).bind fun outputs => ?_
  refine (StopsAtRefusal.of_silent (Shows.log _ _).silent).bind fun _ => ?_
  refine hrun.bind fun o => ?_
  have hfind : StopsAtRefusal TellsRefusal (if (c.verbose && !o.stdout.isEmpty) = true
      then Action.print o.stdout >>= fun _ => findFirmware buildPath
      else findFirmware buildPath) :=
    .ite_bind (Shows.print _).silent _ (.of_silent (silent_findFirmware buildPath))
  dsimp only
  split
  · refine (StopsAtRefusal.of_silent (.ofExcept _ _)).bind fun _ => ?_
    exact (StopsAtRefusal.of_silent (.throw _)).bind fun _ => hfind
  · exact hfind

end Compiler

/-! ## Builds and checks -/

namespace Build

theorem stopsAtRefusal_translateAll (t : Translator) (dir : Path) (board : Json)
    (sourceMap : Bool) (sources : List Path) :
    StopsAtRefusal TellsRefusal (translateAll t dir board sourceMap sources) := by
  induction sources with
  | nil => exact .of_silent (.pure _)
  | cons source rest ih =>
      refine (t.stopsAtRefusal_translate _ _ _ _).bind fun o => ?_
      refine (StopsAtRefusal.of_silent (Shows.log _ _).silent).bind fun _ => ?_
      refine (StopsAtRefusal.of_silent (Shows.print _).silent).bind fun _ => ?_
      exact ih.bind fun _ => .of_silent (.pure _)

theorem stopsAtRefusal_compileSketch (c : Compiler) (sketch : Sketch.Checked) (fqbn : String)
    (cache : Path) (result : Result) :
    StopsAtRefusal TellsRefusal (compileSketch c sketch fqbn cache result) := by
  refine (c.stopsAtRefusal_compile sketch fqbn cache).tryCatch (fun f => ?_) ?_
  · split <;> exact .throw _
  · -- only the failure of a compiler that was started is changed
    intro s r f hf
    refine ⟨f, hf, ?_⟩
    cases hf <;> rfl

theorem Builder.stopsAtRefusal_compile (b : Builder) (root : Path) (result : Result) :
    StopsAtRefusal TellsRefusal (b.compile root result) := by
  unfold Builder.compile
  split
  · refine (StopsAtRefusal.of_silent (shows_step b 5 _).silent).bind fun _ => ?_
    refine (StopsAtRefusal.of_silent (silent_checkSketch _ _)).bind fun sketch => ?_
    refine (StopsAtRefusal.of_silent (shows_step b 6 _).silent).bind fun _ => ?_
    refine (stopsAtRefusal_compileSketch _ _ _ _ _).bind fun firmware => ?_
    exact StopsAtRefusal.ite_bind (Shows.log _ _).silent _ (.of_silent (.pure _))
  · exact .of_silent (.throw _)

theorem Builder.stopsAtRefusal_build (b : Builder) (r : Request) :
    StopsAtRefusal TellsRefusal (b.build r) := by
  refine (StopsAtRefusal.of_silent (b.silent_prepare r)).bind fun prepared => ?_
  refine (stopsAtRefusal_translateAll _ _ _ _ _).bind fun done => ?_
  refine (StopsAtRefusal.of_silent (silent_assemble b _)).bind fun _ => ?_
  split
  · exact b.stopsAtRefusal_compile _ _
  · exact .of_silent (.pure _)

end Build

namespace Check

theorem stopsAtRefusal_checkAll (t : Translator) (board : Json) (sources : List Path) :
    StopsAtRefusal TellsRefusal (checkAll t board sources) := by
  induction sources with
  | nil => exact .of_silent (.pure _)
  | cons source rest ih =>
      refine (t.stopsAtRefusal_check _ _).bind fun v => ?_
      refine (StopsAtRefusal.of_silent (Shows.log _ _).silent).bind fun _ => ?_
      exact ih.bind fun _ => .of_silent (.pure _)

theorem stopsAtRefusal_run (projectDir : Path) (manifest : Manifest) (settings : Settings)
    (board : Option String) (verbose : Bool) :
    StopsAtRefusal TellsRefusal (run projectDir manifest settings board verbose) := by
  unfold run
  refine StopsAtRefusal.bind (.of_silent ?_) fun installed => ?_
  · exact (silent_findSetting _).bind fun _ => .pure _
  · split
    · exact .of_silent (.throw _)
    · refine (StopsAtRefusal.of_silent (.ask _)).bind fun sources => ?_
      split
      · exact .of_silent (.throw _)
      · exact (stopsAtRefusal_checkAll _ _ _).bind fun _ => .of_silent (.pure _)

end Check

/-! ## Uploads -/

namespace Upload.Uploader

theorem stopsAtRefusal_portFor (u : Uploader) (given : Option String) :
    StopsAtRefusal (fun s r f => f = s.refusalFault r) (u.portFor given) := by
  have hdetect : StopsAtRefusal (fun s r f => f = s.refusalFault r) u.detect := by
    refine (Tool.stopsAtRefusal_run none false (by simp)).bind fun o => ?_
    split
    · exact .of_silent (.throw _)
    · exact .of_silent (.pure _)
  unfold portFor
  dsimp only
  split
  · exact .of_silent (.pure _)
  · split
    · exact .of_silent (.throw _)
    · refine (StopsAtRefusal.of_silent (Shows.print _).silent).bind fun _ => ?_
      refine hdetect.bind fun found => ?_
      split
      · exact .of_silent ((Shows.print _).silent.bind fun _ => .pure _)
      · exact .of_silent (.throw _)

theorem silent_boardOf? (v : Json) : Silent (boardOf? v) := by
  unfold boardOf?
  split
  · exact .pure _
  · split
    · exact .throw _
    · exact .pure _

theorem silent_buildDir (o : Options) : Silent (buildDir o) := by
  unfold buildDir
  split
  · exact .pure _
  · refine Silent.bind ?_ fun _ => .pure _
    unfold Build.joinSetting
    split
    · exact .pure _
    · exact .throw _

theorem silent_conclude (port : String) (output : Tool.Output) : Silent (conclude port output) := by
  unfold conclude
  split
  · exact (Silent.ofExcept _ _).bind fun _ => .pure _
  · exact .pure _

theorem stopsAtRefusal_send (u : Uploader) (fqbn port : String) (dir : Directory) :
    StopsAtRefusal (fun s r f => f = s.refusalFault r) (u.send fqbn port dir) := by
  unfold send
  dsimp only
  refine StopsAtRefusal.ite _ (fun hrun => ?_) ?_
  · refine (StopsAtRefusal.of_silent (silent_spell _)).bind fun _ => ?_
    exact (StopsAtRefusal.of_silent (.printStr _)).bind fun _ => hrun
  · refine (StopsAtRefusal.of_silent (Shows.log _ _).silent).bind fun _ => ?_
    refine (Tool.stopsAtRefusal_run none true (by simp [command])).bind fun output => ?_
    exact .of_silent (silent_conclude port output)

theorem stopsAtRefusal_upload (u : Uploader) (o : Options) :
    StopsAtRefusal (fun s r f => f = s.refusalFault r) (u.upload o) := by
  unfold upload
  refine (StopsAtRefusal.of_silent (silent_buildDir o)).bind fun dir => ?_
  refine (u.stopsAtRefusal_portFor o.port).bind fun port => ?_
  refine (StopsAtRefusal.of_silent (silent_boardOf? _)).bind fun board => ?_
  split
  · refine (StopsAtRefusal.of_silent (silent_isThere dir)).bind fun there => ?_
    exact StopsAtRefusal.ite_bind (Shows.log _ _).silent _ (u.stopsAtRefusal_send _ port dir)
  · exact .of_silent (.throw _)

theorem deploy_of_ok {u : Uploader} {o : Options} {w w' : World} {result : Result}
    (h : u.upload o w = .ok result w') : u.deploy o w = .ok result w' := by
  have hrun : (u.upload o >>= fun r => (ExceptT.run (pure r) : Action (Except Result Result))) w =
      .ok (.ok result) w' := bind_of_ok h
  exact bind_of_ok (tryCatch_of_ok hrun)

/-- What is made of a fault: a result without success, or the fault again. -/
def reported (u : Uploader) : Fault → Except Fault Result
  | .upload e =>
    .ok { success := false, message := e.message, port := e.port, hint := some e.hint }
  | .file ⟨.notFound, _⟩ =>
    .ok { success := false, message := u.binary.toStr ++ " not found"
          hint := some Build.installHint }
  | f => .error f

theorem deploy_of_error {u : Uploader} {o : Options} {w w' : World} {f : Fault}
    (h : u.upload o w = .error f w') : u.deploy o w = Translator.endIn w' (u.reported f) := by
  have hrun : (u.upload o >>= fun r => (ExceptT.run (pure r) : Action (Except Result Result))) w =
      .error f w' := bind_of_error h
  refine (bind_congr (tryCatch_of_error hrun)).trans ?_
  split
  · rfl
  · rfl
  · next hupload hfile =>
      have hreported : u.reported f = .error f := by rw [reported] <;> assumption
      exact congrArg (Translator.endIn w') hreported.symm

/-- To report a fault changes nothing in the world. -/
theorem after_deploy (u : Uploader) (o : Options) (w : World) :
    (u.deploy o).after w = (u.upload o).after w := by
  cases h : u.upload o w with
  | ok result w' => rw [after_of_ok (deploy_of_ok h), after_of_ok h]
  | error f w' =>
      rw [after_of_error h]
      cases hf : u.reported f with
      | ok result => exact after_of_ok (by rw [deploy_of_error h, hf]; rfl)
      | error f' => exact after_of_error (by rw [deploy_of_error h, hf]; rfl)

/-- An upload whose tool is refused has no success if the tool was not found, and stops with the
fault of the system if not. -/
theorem deploy_of_refused {u : Uploader} {o : Options} {w : World} {s : Start} {r : Refusal}
    (h : (u.deploy o).Refused w s r) :
    (r = .notFound ∧ ∃ result w', u.deploy o w = .ok result w' ∧ result.success = false) ∨
      (r ≠ .notFound ∧ ∃ w', u.deploy o w = .error (s.refusalFault r) w') := by
  obtain ⟨response, hstarted, hr⟩ := h
  rw [started_congr (after_deploy u o w)] at hstarted
  obtain ⟨f, rfl, herr⟩ := (u.stopsAtRefusal_upload o w).2 s r ⟨response, hstarted, hr⟩
  rw [deploy_of_error herr]
  cases r with
  | notFound => exact .inl ⟨rfl, _, _, rfl, rfl⟩
  | _ => exact .inr ⟨nofun, _, rfl⟩

end Upload.Uploader

/-! ## Every stage -/

/-- The action stops with a failure of the build. -/
def Action.FailsAsBuild {α : Type} (x : Action α) (w : World) : Prop :=
  ∃ e w', x w = .error (.build e) w'

/-- The action stops with the fault that the system gave when it refused to start `s`. -/
def Action.LetsThrough {α : Type} (x : Action α) (w : World) (s : Start) (r : Refusal) : Prop :=
  ∃ w', x w = .error (s.refusalFault r) w'

/-- The upload gives a result, which tells that there was no success. -/
def Upload.ReportsFailure (x : Action Upload.Result) (w : World) : Prop :=
  ∃ result w', x w = .ok result w' ∧ result.success = false

theorem Action.StopsAtRefusal.failsAsBuild_iff {α : Type} {x : Action α} {w : World} {s : Start}
    {r : Refusal} (hx : StopsAtRefusal TellsRefusal x) (h : x.Refused w s r) :
    (x.FailsAsBuild w ↔ r = .notFound) ∧ (x.LetsThrough w s r ↔ r ≠ .notFound) := by
  obtain ⟨f, hf, herr⟩ := (hx w).2 s r h
  cases hf with
  | missing e =>
      refine ⟨iff_of_true ⟨_, _, herr⟩ rfl, iff_of_false ?_ (not_not_intro rfl)⟩
      rintro ⟨w', h'⟩
      cases herr.symm.trans h'
  | other hr =>
      refine ⟨iff_of_false ?_ hr, iff_of_true ⟨_, herr⟩ hr⟩
      rintro ⟨e, w', h'⟩
      cases herr.symm.trans h'

/-- **A tool that cannot be started is reported by its stage exactly if it was not found.** This
holds of every program of every build, check and upload. For any other reason the fault of the
system goes through. -/
theorem refusal_reported_iff (w : World) (s : Start) (r : Refusal) :
    (∀ (b : Build.Builder) (request : Build.Request), (b.build request).Refused w s r →
      ((b.build request).FailsAsBuild w ↔ r = .notFound) ∧
      ((b.build request).LetsThrough w s r ↔ r ≠ .notFound)) ∧
    (∀ (projectDir : Path) (manifest : Manifest) (settings : Settings) (board : Option String)
        (verbose : Bool),
      let x := Check.run projectDir manifest settings board verbose
      x.Refused w s r →
        (x.FailsAsBuild w ↔ r = .notFound) ∧ (x.LetsThrough w s r ↔ r ≠ .notFound)) ∧
    ∀ (u : Upload.Uploader) (options : Upload.Options), (u.deploy options).Refused w s r →
      (Upload.ReportsFailure (u.deploy options) w ↔ r = .notFound) ∧
      ((u.deploy options).LetsThrough w s r ↔ r ≠ .notFound) := by
  refine ⟨fun b request h => ?_, ?_, fun u options h => ?_⟩
  · exact (b.stopsAtRefusal_build request).failsAsBuild_iff h
  · intro projectDir manifest settings board verbose x h
    exact (Check.stopsAtRefusal_run projectDir manifest settings board verbose).failsAsBuild_iff h
  · rcases Upload.Uploader.deploy_of_refused h with
      ⟨hr, result, w', hok, hfail⟩ | ⟨hr, w', herr⟩
    · refine ⟨iff_of_true ⟨result, w', hok, hfail⟩ hr, iff_of_false ?_ (not_not_intro hr)⟩
      rintro ⟨w'', h'⟩
      cases hok.symm.trans h'
    · refine ⟨iff_of_false ?_ hr, iff_of_true ⟨w', herr⟩ hr⟩
      rintro ⟨result, w'', h', -⟩
      cases herr.symm.trans h'

/-! ## A sample

In the project `blink` every program is refused for the same reason. -/

namespace Sample

open Build.Sample (settings manifest request)

def world (r : Refusal) : World :=
  { Build.Sample.world "" with tools := fun _ _ d => ⟨d.tree, .error r⟩ }

def builder : Build.Builder := .ofSettings settings false

def check : Action Check.Report := Check.run request.projectDir manifest settings none false

def uploader : Upload.Uploader := ⟨settings, false⟩

def options : Upload.Options := { projectDir := request.projectDir, manifest, port := some "COM1" }

/-- An action that starts one program is refused it. -/
theorem exists_refused {α : Type} (x : Action α) (r : Refusal) (program : String)
    (h : (x.after (world r)).past.map (·.invocation.argv.headD "") = [program]) :
    ∃ s : Start, s.invocation.argv.headD "" = program ∧ x.Refused (world r) s r := by
  obtain ⟨s, hs, hprogram⟩ := List.map_eq_singleton_iff.mp h
  exact ⟨s, hprogram, _, ⟨[], [], hs, rfl⟩, rfl⟩

end Sample

/-- Tools that are not found are told by each stage in its own way. -/
theorem refusal_reported_notFound :
    (Sample.builder.build Build.Sample.request).FailsAsBuild (Sample.world .notFound) ∧
      Sample.check.FailsAsBuild (Sample.world .notFound) ∧
      Upload.ReportsFailure (Sample.uploader.deploy Sample.options) (Sample.world .notFound) := by
  obtain ⟨s₁, -, h₁⟩ := Sample.exists_refused (Sample.builder.build Build.Sample.request)
    .notFound "/core" (by decide +kernel)
  obtain ⟨s₂, -, h₂⟩ := Sample.exists_refused Sample.check .notFound
    "/core" (by decide +kernel)
  obtain ⟨s₃, -, h₃⟩ := Sample.exists_refused (Sample.uploader.deploy Sample.options)
    .notFound "arduino-cli" (by decide +kernel)
  exact ⟨((refusal_reported_iff _ s₁ _).1 _ _ h₁).1.mpr rfl,
    ((refusal_reported_iff _ s₂ _).2.1 _ _ _ _ _ h₂).1.mpr rfl,
    ((refusal_reported_iff _ s₃ _).2.2 _ _ h₃).1.mpr rfl⟩

/-- Tools that may not be run stop a build, a check and an upload with the fault of the system. -/
theorem refusal_denied_goes_through :
    (∃ w', Sample.builder.build Build.Sample.request (Sample.world .denied) =
        .error (.file ⟨.denied, .text "/core"⟩) w') ∧
      (∃ w', Sample.check (Sample.world .denied) =
        .error (.file ⟨.denied, .text "/core"⟩) w') ∧
      ∃ w', Sample.uploader.deploy Sample.options (Sample.world .denied) =
        .error (.file ⟨.denied, .text "arduino-cli"⟩) w' := by
  have hfault : ∀ {s : Start} {program : String}, s.invocation.argv.headD "" = program →
      s.refusalFault .denied = .file ⟨.denied, .text program⟩ := by
    rintro s _ rfl
    rfl
  refine ⟨?_, ?_, ?_⟩
  · obtain ⟨s, hs, h⟩ := Sample.exists_refused (Sample.builder.build Build.Sample.request)
      .denied "/core" (by decide +kernel)
    rw [← hfault hs]
    exact ((Sample.builder.stopsAtRefusal_build _).failsAsBuild_iff h).2.mpr nofun
  · obtain ⟨s, hs, h⟩ := Sample.exists_refused Sample.check .denied
      "/core" (by decide +kernel)
    rw [← hfault hs]
    exact ((Check.stopsAtRefusal_run _ _ _ _ _).failsAsBuild_iff h).2.mpr nofun
  · obtain ⟨s, hs, h⟩ := Sample.exists_refused (Sample.uploader.deploy Sample.options)
      .denied "arduino-cli" (by decide +kernel)
    rw [← hfault hs]
    rcases Upload.Uploader.deploy_of_refused h with ⟨hr, -⟩ | ⟨-, hthrough⟩
    · cases hr
    · exact hthrough

end SketchBuild
