import Mathlib.Data.List.Forall2
import SketchBuild.Proofs.Build.Firmware
import SketchBuild.Proofs.Congruence
import SketchBuild.Proofs.StartRefusal

/-!
# Verbosity

A verbose build tells more and asks the board tool to tell more. If the tools do not mind, and all
that is told is a text, then it does the same as a quiet one: `verbosity_harmless` compares the two
runs step by step. It holds of uploads too: a verbose upload shows its command, so the board tool
has to be named by a text.
-/

namespace SketchBuild

open SketchBuild.Action
open Tool (Start Tools Invocation)

/-! ## Invocations -/

/-- The second program is called as the first, but may be asked to tell more. -/
structure Tool.Invocation.Louder (i i' : Invocation) : Prop where
  argv : Tool.Louder id i.argv i'.argv
  cwd : i'.cwd = i.cwd
  merge : i'.merge = i.merge

theorem Tool.Invocation.Louder.refl (i : Invocation) : i.Louder i := ⟨.same _, rfl, rfl⟩

/-- What the tools do does not depend on whether they are asked to tell more. -/
def Tool.Tools.IgnoreVerbose (tools : Tools) : Prop :=
  ∀ past past' i i' d, List.Forall₂ Invocation.Louder past past' → i.Louder i' →
    tools past' i' d = tools past i d

/-! ## Two runs -/

/-- Two worlds that come from the same one: the disks are the same, and so are the programs that
were started, up to the word that asks to tell more. -/
structure Alike (w₀ w w' : World) : Prop where
  disk : w'.disk = w.disk
  starts : ∃ ss ss', Trail w₀ w ss ∧ Trail w₀ w' ss' ∧
    List.Forall₂ (fun s s' : Start => s.invocation.Louder s'.invocation) ss ss'

section Alike

variable {w₀ w w' v v' : World}

theorem Alike.refl (w : World) : Alike w w w := ⟨rfl, [], [], .refl w, .refl w, .nil⟩

theorem Alike.env (h : Alike w₀ w w') : w'.env = w.env := by
  obtain ⟨-, ss, ss', ht, ht', -⟩ := h
  exact ht'.env.trans ht.env.symm

theorem Alike.withDisk (h : Alike w₀ w w') (d : Disk) :
    Alike w₀ { w with disk := d } { w' with disk := d } := by
  obtain ⟨-, ss, ss', ht, ht', hss⟩ := h
  exact ⟨rfl, ss, ss', ht.trans_silent (.withDisk w d), ht'.trans_silent (.withDisk w' d), hss⟩

/-- What is shown makes no difference. -/
theorem Alike.quiet (h : Alike w₀ w w') (hv : Quiet w v) (hv' : Quiet w' v') : Alike w₀ v v' := by
  obtain ⟨hdisk, ss, ss', ht, ht', hss⟩ := h
  refine ⟨?_, ss, ss', ht.trans_silent hv.trail, ht'.trans_silent hv'.trail, hss⟩
  rw [hv.disk, hv'.disk, hdisk]

/-- Tools that do not mind respond alike. -/
theorem Alike.response (htools : w₀.tools.IgnoreVerbose) (h : Alike w₀ w w') {i i' : Invocation}
    (hi : i.Louder i') : w'.response i' = w.response i := by
  obtain ⟨hdisk, ss, ss', ht, ht', hss⟩ := h
  have hpast : List.Forall₂ Invocation.Louder (w.past.map (·.invocation))
      (w'.past.map (·.invocation)) := by
    rw [ht.past, ht'.past, List.map_append, List.map_append]
    refine List.rel_append (List.forall₂_same.mpr fun i _ => .refl i) ?_
    rwa [List.forall₂_map_left_iff, List.forall₂_map_right_iff]
  rw [World.response, World.response, Start.response, Start.response, ht.tools, ht'.tools, hdisk]
  exact htools _ _ _ _ _ hpast hi

theorem Alike.ran (htools : w₀.tools.IgnoreVerbose) (h : Alike w₀ w w') {i i' : Invocation}
    (hi : i.Louder i') (hv : Ran w i v) (hv' : Ran w' i' v') : Alike w₀ v v' := by
  have hresp := h.response htools hi
  obtain ⟨hdisk, ss, ss', ht, ht', hss⟩ := h
  refine ⟨?_, _, _, ht.trans hv.trail, ht'.trans hv'.trail, ?_⟩
  · rw [hv.disk, hv'.disk, hdisk, hresp]
  · exact List.rel_append hss (.cons hi .nil)

end Alike

/-- Two runs end alike: with the same value or the same fault, and in alike worlds. -/
inductive Matched {α : Type} (w₀ : World) :
    EStateM.Result Fault World α → EStateM.Result Fault World α → Prop
  | ok (a : α) {w w' : World} (h : Alike w₀ w w') : Matched w₀ (.ok a w) (.ok a w')
  | error (f : Fault) {w w' : World} (h : Alike w₀ w w') : Matched w₀ (.error f w) (.error f w')

theorem Matched.exists_ok {α : Type} {x y : Action α} {w₀ w w' : World}
    (h : Matched w₀ (x w) (y w')) (hx : (x.value? w).isSome = true) :
    ∃ a v v', x w = .ok a v ∧ y w' = .ok a v' ∧ v'.disk = v.disk := by
  obtain ⟨a, ha⟩ := Option.isSome_iff_exists.mp hx
  have hok := value?_eq_some_iff.mp ha
  rw [hok] at h
  generalize hy : y w' = r at h
  cases h with
  | ok _ hv => exact ⟨a, _, _, hok, rfl, hv.disk⟩

/-- From alike worlds the two actions run alike. -/
def Matching {α : Type} (w₀ : World) (x y : Action α) : Prop :=
  ∀ w w', Alike w₀ w w' → Matched w₀ (x w) (y w')

section Matching

variable {w₀ : World} {α β : Type}

theorem Matching.pure (a : α) : Matching w₀ (pure a) (pure a) := fun _ _ h => .ok a h

theorem Matching.throw (f : Fault) : Matching w₀ (throw f : Action α) (throw f) :=
  fun _ _ h => .error f h

theorem Matching.bind {x y : Action α} {f g : α → Action β} (h : Matching w₀ x y)
    (hfg : ∀ a, Matching w₀ (f a) (g a)) : Matching w₀ (x >>= f) (y >>= g) := by
  intro w w' hw
  have hrun := h w w' hw
  generalize hx : x w = r at hrun
  generalize hy : y w' = r' at hrun
  cases hrun with
  | ok a hv =>
      rw [bind_of_ok hx, bind_of_ok hy]
      exact hfg a _ _ hv
  | error e hv =>
      rw [bind_of_error hx, bind_of_error hy]
      exact .error e hv

theorem Matching.tryCatch {x y : Action α} {g : Fault → Action α} (h : Matching w₀ x y)
    (hg : ∀ f, ∃ f', g f = MonadExcept.throw f') :
    Matching w₀ (tryCatch x g) (tryCatch y g) := by
  intro w w' hw
  have hrun := h w w' hw
  generalize hx : x w = r at hrun
  generalize hy : y w' = r' at hrun
  cases hrun with
  | ok a hv =>
      rw [tryCatch_of_ok hx, tryCatch_of_ok hy]
      exact .ok a hv
  | error e hv =>
      obtain ⟨f', hf⟩ := hg e
      rw [tryCatch_of_throw hx hf, tryCatch_of_throw hy hf]
      exact .error f' hv

theorem Matching.shows {x y : Action Unit} (hx : Shows x) (hy : Shows y) : Matching w₀ x y := by
  intro w w' hw
  obtain ⟨v, hrun, hq⟩ := hx w
  obtain ⟨v', hrun', hq'⟩ := hy w'
  rw [hrun, hrun']
  exact .ok () (hw.quiet hq hq')

theorem Matching.ask (question : Disk → Except FileError α) :
    Matching w₀ (ask question) (ask question) := by
  intro w w' hw
  cases hq : question w.disk with
  | ok a =>
      rw [ask_of_ok hq, ask_of_ok (hw.disk ▸ hq)]
      exact .ok a hw
  | error e =>
      rw [ask_of_error hq, ask_of_error (hw.disk ▸ hq)]
      exact .error _ hw

theorem Matching.change (operation : Disk → Except FileError Disk) :
    Matching w₀ (change operation) (change operation) := by
  intro w w' hw
  cases hop : operation w.disk with
  | ok d =>
      rw [change_of_ok hop, change_of_ok (hw.disk ▸ hop)]
      exact .ok () (hw.withDisk d)
  | error e =>
      rw [change_of_error hop, change_of_error (hw.disk ▸ hop)]
      exact .error _ hw

theorem Matching.changePartly (operation : Disk → Option FileError × Disk) :
    Matching w₀ (changePartly operation) (changePartly operation) := by
  intro w w' hw
  rcases hop : operation w.disk with ⟨failure, d⟩
  cases failure with
  | none =>
      rw [changePartly_of_none hop, changePartly_of_none (hw.disk ▸ hop)]
      exact .ok () (hw.withDisk d)
  | some e =>
      rw [changePartly_of_some hop, changePartly_of_some (hw.disk ▸ hop)]
      exact .error _ (hw.withDisk d)

theorem Matching.findSetting (setting : Json) :
    Matching w₀ (Tool.findSetting setting) (Tool.findSetting setting) := by
  intro w w' hw
  unfold Tool.findSetting
  split
  · exact .ok none hw
  · split
    · next name _ =>
        show Matched w₀ (.ok (Tool.find? w.disk w.env name) w)
          (.ok (Tool.find? w'.disk w'.env name) w')
        rw [hw.disk, hw.env]
        exact .ok _ hw
    · exact .ok none hw
    · exact .error _ hw

theorem Matching.run (htools : w₀.tools.IgnoreVerbose) {command command' : List Text.Str}
    (hne : command ≠ []) (h : Tool.Louder .text command command') (cwd : Option Path)
    (merge : Bool) : Matching w₀ (Tool.run command cwd merge) (Tool.run command' cwd merge) := by
  intro w w' hw
  cases hwords : Text.Str.words command with
  | error e =>
      obtain ⟨v, hq, hrun⟩ := Tool.run_of_torn hwords cwd merge w
      obtain ⟨v', hq', hrun'⟩ := Tool.run_of_torn (h.words_eq_error hwords) cwd merge w'
      rw [hrun, hrun']
      exact .error _ (hw.quiet hq hq')
  | ok argv =>
  obtain ⟨argv', hwords', hargv⟩ := h.words_eq_ok hwords
  have hne' : command' ≠ [] := h.ne_nil hne
  have hi : Invocation.Louder ⟨argv, cwd.map Path.toString, merge⟩
      ⟨argv', cwd.map Path.toString, merge⟩ := ⟨hargv, rfl, rfl⟩
  obtain ⟨v, hran, hrun⟩ :=
    Tool.run_apply cwd merge w hwords (Text.Str.ne_nil_of_words hwords hne)
  obtain ⟨v', hran', hrun'⟩ :=
    Tool.run_apply cwd merge w' hwords' (Text.Str.ne_nil_of_words hwords' hne')
  rw [hrun, hrun', hw.response htools hi, hargv.headD_eq]
  have hv := hw.ran htools hi hran hran'
  cases Tool.reading (argv.headD "") merge (w.response ⟨argv, cwd.map Path.toString, merge⟩) with
  | ok output => exact .ok output hv
  | error f => exact .error f hv

/-- To run alike is kept when actions are put together, if the tools do not mind. -/
theorem congruence_matching (htools : w₀.tools.IgnoreVerbose) :
    Action.Congruence (fun _ => True) (fun _ => True)
      (fun {α} (x y : Action α) => Matching w₀ x y) where
  told _ := trivial
  pure a := .pure a
  throw _ := .throw _
  bind h hfg := h.bind hfg
  tryCatch h hg _ := h.tryCatch fun f => (hg f trivial).imp fun _ => And.left
  ask question := .ask question
  change operation := .change operation
  changePartly operation := .changePartly operation
  findSetting setting := .findSetting setting
  log level message := .shows (.log level message) (.log level message)
  mention _ _ := .shows (.ite_print _ _) (.ite_print _ _)
  run hne h cwd merge := .run htools hne h cwd merge

end Matching

/-! ## Builds and uploads -/

section Runs

open Upload (Uploader Options)

variable (settings : Settings) {w : World} (htools : w.tools.IgnoreVerbose)
include htools

theorem matched_build {r : Build.Request} (htold : r.IsTold settings) :
    Matched w ((Build.Builder.ofSettings settings false).build r w)
      ((Build.Builder.ofSettings settings true).build r w) :=
  (congruence_matching htools).build settings (fun _ => trivial) (fun _ => trivial)
    (fun _ => rfl) (fun _ _ _ => trivial) (.inr htold) trivial w w (.refl w)

theorem matched_deploy {o : Options} (htold : o.IsTold settings) :
    Matched w (Uploader.deploy ⟨settings, false⟩ o w) (Uploader.deploy ⟨settings, true⟩ o w) := by
  have hrun := (congruence_matching htools).upload false true (fun _ => trivial) (fun _ => rfl)
    (.inr htold) w w (.refl w)
  generalize hx : Uploader.upload ⟨settings, false⟩ o w = r at hrun
  generalize hy : Uploader.upload ⟨settings, true⟩ o w = r' at hrun
  cases hrun with
  | ok result hv =>
      rw [Uploader.deploy_of_ok hx, Uploader.deploy_of_ok hy]
      exact .ok result hv
  | error f hv =>
      -- what is made of a fault depends on the settings only
      have hsame : Uploader.reported ⟨settings, true⟩ f = Uploader.reported ⟨settings, false⟩ f :=
        rfl
      rw [Uploader.deploy_of_error hx, Uploader.deploy_of_error hy, hsame]
      cases Uploader.reported ⟨settings, false⟩ f with
      | ok result => exact .ok result hv
      | error f' => exact .error f' hv

/-- **Verbosity changes nothing but what is told.** With tools that do the same whether or not they
are asked to tell more, a verbose build that tells of nothing torn gives the same result or the same
fault as a quiet one, leaves the same disk and starts the same programs, up to the word that asks to
tell more. The same holds of uploads, if the board tool and the directory are named by texts. -/
theorem verbosity_harmless :
    (∀ r : Build.Request, r.IsTold settings →
      Matched w ((Build.Builder.ofSettings settings false).build r w)
        ((Build.Builder.ofSettings settings true).build r w)) ∧
    ∀ o : Options, o.IsTold settings →
      Matched w (Uploader.deploy ⟨settings, false⟩ o w)
        (Uploader.deploy ⟨settings, true⟩ o w) :=
  ⟨fun _ => matched_build settings htools, fun _ => matched_deploy settings htools⟩

end Runs

/-! ## A sample

All programs leave what a build of `blink` leaves, and tell the same. -/

namespace VerboseSample

def built : Tree :=
  .ofList <| Build.Sample.entries ++
    [(["p", "build"], .directory), (Build.Sample.cacheLoc, .directory),
      (Build.Sample.cacheLoc ++ ["blink.ino.bin"], .file [0] false),
      (["p", "build", "blink"], .directory)] ++
    ["a.cpp", "b.cpp", "c.cpp"].map fun n => (["p", "build", "blink", n], .file [] false)

def world : World :=
  { Build.Sample.world "" with
    tools := fun _ _ _ => ⟨built, .ok ⟨1, .empty, .exited 0 [104] []⟩⟩ }

/-- The manifest of `blink`, for a board whose name is half of a surrogate pair. -/
def tornManifest : Manifest := { Build.Sample.manifest with board := .torn [.half ⟨0⟩] rfl }

theorem ignoreVerbose : world.tools.IgnoreVerbose := fun _ _ _ _ _ _ _ => rfl

/-- The words of the programs that an action starts. -/
def words {α : Type} (x : Action α) : List (List String) :=
  (x.after world).past.map (·.invocation.argv)

end VerboseSample

/-- A verbose build of `blink` asks the compiler to tell more, and gives the same result. So does an
upload. -/
theorem verbosity_harmless_sample :
    let build v := (Build.Builder.ofSettings Build.Sample.settings v).build
      Build.Sample.compileRequest
    let deploy v := Upload.Uploader.deploy ⟨Build.Sample.settings, v⟩ Sample.options
    (∃ result w w', build false VerboseSample.world = .ok result w ∧
      build true VerboseSample.world = .ok result w' ∧ w'.disk = w.disk) ∧
    (VerboseSample.words (build false)).getLast? = some ["arduino-cli", "compile", "--fqbn",
      "arduino:avr:uno", "--build-path", "/p/build/.cache", "--warnings", "all",
      "/p/build/blink"] ∧
    (VerboseSample.words (build true)).getLast? = some ["arduino-cli", "compile", "--fqbn",
      "arduino:avr:uno", "--build-path", "/p/build/.cache", "--warnings", "all", "--verbose",
      "/p/build/blink"] ∧
    ∃ result w w', deploy false VerboseSample.world = .ok result w ∧
      deploy true VerboseSample.world = .ok result w' ∧ w'.disk = w.disk := by
  intro build deploy
  have hmatched := verbosity_harmless Build.Sample.settings VerboseSample.ignoreVerbose
  have hbuild : Matched _ (build false _) (build true _) :=
    hmatched.1 Build.Sample.compileRequest ⟨rfl, rfl, .inr rfl⟩
  have hdeploy : Matched _ (deploy false _) (deploy true _) :=
    hmatched.2 Sample.options ⟨rfl, .inr rfl⟩
  exact ⟨hbuild.exists_ok (by decide +kernel), by decide +kernel, by decide +kernel,
    hdeploy.exists_ok (by decide +kernel)⟩

/-- A board tool that is named by a number is run by a quiet upload, but not by a verbose one. For a
torn board a quiet build makes the sketch directory before it stops, and a verbose one does not. -/
theorem verbose_runs_differ :
    let deploy v := Upload.Uploader.deploy
      ⟨{ Build.Sample.settings with arduinoCli := .int 5 }, v⟩ Sample.options
    let build v := (Build.Builder.ofSettings Build.Sample.settings v).build
      { Build.Sample.request with manifest := VerboseSample.tornManifest }
    let sketch v := ((build v).after VerboseSample.world).disk.tree.get? ["p", "build", "blink"]
    VerboseSample.world.tools.IgnoreVerbose ∧
      VerboseSample.words (deploy false) = [["5", "upload", "--fqbn", "arduino:avr:uno", "--port",
        "COM1", "--input-dir", "/p/build/.cache"]] ∧
      ((deploy false).value? VerboseSample.world).map (·.success) = some true ∧
      VerboseSample.words (deploy true) = [] ∧
      (∃ f w', deploy true VerboseSample.world = .error f w') ∧
      sketch false = some .directory ∧ sketch true = none := by
  intro deploy build sketch
  have hnone : ((deploy true).value? VerboseSample.world).isNone = true := by decide +kernel
  obtain ⟨f, herr⟩ := value?_eq_none_iff.mp (Option.isNone_iff_eq_none.mp hnone)
  exact ⟨VerboseSample.ignoreVerbose, by decide +kernel, by decide +kernel, by decide +kernel,
    ⟨f, _, herr⟩, by decide +kernel, by decide +kernel⟩

end SketchBuild
