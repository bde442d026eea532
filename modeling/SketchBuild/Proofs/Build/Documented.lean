import SketchBuild.Proofs.Build.Assembly
import SketchBuild.Proofs.Diagnostic.Feasible
import SketchBuild.Proofs.Tool.Refused

/-! # Which faults a build lets through

A build reports its failures as `Build.Error`. It makes the sketch directory under a handler, but
removes stale outputs, writes the entry point and makes the compiler's directory without one, so
what the system says there goes through as it is. `Builder.fails_only_as_build_iff` names all that
can be in the way, for tools that are found or not and run to their end. -/

namespace SketchBuild

open SketchBuild.Action

/-- A failure that the build reports itself. -/
def Fault.IsBuild (f : Fault) : Prop := ∃ e, f = .build e

theorem Fault.isBuild_build (e : Build.Error) : Fault.IsBuild (.build e) := ⟨e, rfl⟩

/-- A refusal of the system is no failure that the build reports. -/
theorem Fault.not_isBuild_file (e : FileError) : ¬ Fault.IsBuild (.file e) := by
  simp [IsBuild]

/-! ## Tools -/

namespace Tool

/-- Programs that can be started run to their end; any other is not found. -/
structure Orderly (tools : Tools) : Prop where
  refused : ∀ past i d r, (tools past i d).outcome = .error r → r = .notFound
  ended : ∀ past i d q, (tools past i d).outcome = .ok q → q.ending ≠ .interrupted

theorem AllSucceed.response {tools : Tools} {past before after : List Start} {s : Start}
    (h : AllSucceed tools past (before ++ s :: after)) :
    (s.response tools (past ++ before)).succeeds = true := by
  induction before generalizing past with
  | nil =>
      rw [List.append_nil]
      exact h.1
  | cons s' before ih =>
      have := ih h.2
      rwa [List.append_assoc] at this

/-- An orderly program that fails to run was not found. -/
theorem Orderly.failsOnly_run {w : World} (h : Orderly w.tools) {command : List Text.Str}
    {argv : List String} (cwd : Option Path) (merge : Bool)
    (hwords : Text.Str.words command = .ok argv) (hargv : argv ≠ []) :
    FailsOnly (fun f => ∃ m, f = .file ⟨.notFound, m⟩) (run command cwd merge) w := by
  rcases run_cases cwd merge w hwords hargv with
    ⟨r, w', hout, -, hr⟩ | ⟨q, w', hout, hend, -, hr⟩ | ⟨q, code, out, err, w', -, -, -, hr⟩
  · obtain rfl := h.refused _ _ _ _ hout
    exact (failsOnly_iff_of_error hr).mpr ⟨_, rfl⟩
  · exact absurd hend (h.ended _ _ _ _ hout)
  · exact failsOnly_of_ok hr

end Tool

/-! ## The translator -/

namespace Translator

/-- If the program failed, its messages can be read. -/
def Legible (r : Tool.Response) : Prop :=
  ∀ q code out err, r.outcome = .ok q → q.ending = .exited code out err → code ≠ 0 →
    Diagnostic.Translator.NumbersFit
      ((Text.lines (Tool.Output.decode err).toList).map Diagnostic.Translator.Line.read)

theorem legible_of_succeeds {r : Tool.Response} (h : r.succeeds = true) : Legible r := by
  intro q code out err hout hend hcode
  rw [Tool.Response.succeeds_of_ok hout, hend, beq_iff_eq] at h
  exact absurd h hcode

theorem legible_iff_of_exited {r : Tool.Response} {q : Tool.Run} {code : Int} {out err : List UInt8}
    (hout : r.outcome = .ok q) (hend : q.ending = .exited code out err) (origin : Option String) :
    Legible r ↔ (code ≠ 0 →
      ∃ t, Diagnostic.normalize .translate origin (Tool.Output.decode err) = .ok t) := by
  have hread := @Diagnostic.Translator.exists_read_iff origin (Tool.Output.decode err).toList
  constructor
  · intro hlegible hcode
    exact hread.mpr (hlegible q code out err hout hend hcode)
  · intro hall q' code' out' err' hout' hend' hcode
    cases hout.symm.trans hout'
    cases hend.symm.trans hend'
    exact hread.mp (hall hcode)

/-- A translation that fails is reported by the build exactly if its messages can be read. -/
theorem isBuild_report_iff {t : Translator} {source output : Path} {r : Tool.Response} {f : Fault}
    (h : t.report source output r = .error f) (hrefused : ∀ e, r.outcome = .error e → e = .notFound)
    (hended : ∀ q, r.outcome = .ok q → q.ending ≠ .interrupted) :
    f.IsBuild ↔ Legible r := by
  rw [report] at h
  cases hout : r.outcome with
  | error e =>
      obtain rfl := hrefused e hout
      rw [hout] at h
      cases h
      refine iff_of_true (Fault.isBuild_build _) fun q code out err hok => ?_
      cases hout.symm.trans hok
  | ok q =>
      rw [hout] at h
      dsimp only at h
      cases hend : q.ending with
      | interrupted => exact absurd hend (hended q hout)
      | exited code out err =>
          rw [hend] at h
          dsimp only at h
          rw [legible_iff_of_exited hout hend (some source.toString)]
          split at h
          · cases h
          · next hcode =>
              split at h
              · next t ht =>
                  cases h
                  exact iff_of_true (Fault.isBuild_build _) fun _ => ⟨t, ht⟩
              · next e he =>
                  cases h
                  refine iff_of_false (by simp [Fault.IsBuild]) fun hall => ?_
                  obtain ⟨t, ht⟩ := hall hcode
                  cases he.symm.trans ht

end Translator

namespace Build

/-- **Translating all sources** stops with a failure of the build exactly if all messages can be
read. -/
theorem failsOnly_translateAll_iff {t : Translator} {board : Json} (ht : t.binary.isText = true)
    (hb : board.isText = true) (dir : Path) (sourceMap : Bool) (sources : List Path) {w : World}
    (htools : Tool.Orderly w.tools) :
    FailsOnly Fault.IsBuild (translateAll t dir board sourceMap sources) w ↔
      ∀ s r, (translateAll t dir board sourceMap sources).Started w s r → Translator.Legible r := by
  obtain ⟨runs, w', htrail, hcases⟩ := translateAll_cases ht hb dir sourceMap sources w
  rcases hcases with ⟨done, hok, -, -, hall⟩ |
    ⟨_, source, _, ss, s, f, -, rfl, -, -, hall, hreport, herr, -⟩
  · refine iff_of_true (failsOnly_of_ok hok) fun s r hstarted => ?_
    obtain ⟨before, after, rfl, rfl⟩ := (started_iff (after_of_ok hok ▸ htrail)).mp hstarted
    exact Translator.legible_of_succeeds hall.response
  · rw [failsOnly_iff_of_error herr, Translator.isBuild_report_iff hreport
      (fun e => htools.refused _ _ _ e) (fun q => htools.ended _ _ _ q)]
    constructor
    · intro hlast s' r hstarted
      obtain ⟨before, after, hsplit, rfl⟩ :=
        (started_iff (after_of_error herr ▸ htrail)).mp hstarted
      -- it is the last one, or one of those that succeeded
      rcases List.eq_nil_or_concat after with rfl | ⟨after, s'', rfl⟩
      · obtain ⟨rfl, hs⟩ := List.append_inj' hsplit rfl
        rwa [← List.singleton_inj.mp hs]
      · rw [List.concat_eq_append, ← List.cons_append, ← List.append_assoc] at hsplit
        obtain ⟨rfl, -⟩ := List.append_inj' hsplit rfl
        exact Translator.legible_of_succeeds hall.response
    · intro hlegible
      exact hlegible s _ ((started_iff (after_of_error herr ▸ htrail)).mpr ⟨ss, [], rfl, rfl⟩)

/-! ## Preparing -/

/-- Refusals of the system are reported, but not of a path that it cannot be given. -/
theorem failsOnly_makeSketchDir_iff {dir : Path} {w : World} :
    FailsOnly Fault.IsBuild (makeSketchDir dir) w ↔ Disk.hasNull dir.toString = false := by
  rcases hm : w.disk.makePath dir with ⟨failure, d⟩
  cases failure with
  | none =>
      obtain ⟨⟨hnull, -⟩, -⟩ := Disk.stat_eq_ok_iff.mp (Disk.makePath_made hm).stat
      exact iff_of_true (failsOnly_of_ok (makeSketchDir_of_none hm)) hnull
  | some e =>
      have hrun : makeSketchDir dir w =
          .error (if e.refusal.isSystem then .build (.environment dir e) else .file e)
            { w with disk := d } := by
        rw [makeSketchDir, tryCatch_of_error (makePath_of_some hm)]
        dsimp only
        split <;> rfl
      rw [failsOnly_iff_of_error hrun, ← Bool.not_eq_true, ← Disk.makePath_nullCharacter_iff hm]
      split
      · next hsystem => exact iff_of_true (Fault.isBuild_build _) (of_decide_eq_true hsystem)
      · next hsystem =>
          refine iff_of_false (Fault.not_isBuild_file e) fun hr => ?_
          exact hsystem (decide_eq_true hr)

/-- A search for sources stops with a failure of the build, unless the path of the source directory
is too long. -/
theorem failsOnly_findSources_iff {b : Builder} {r : Request} {w : World}
    (ht : b.translator.binary.isText = true) (hprintable : b.Printable r) :
    FailsOnly Fault.IsBuild (b.findSources r) w ↔
      (Tool.installed w.disk w.env b.translator.binary = true → r.sources = none →
        w.disk.locate (sourceDir r.projectDir) ≠ .error .nameTooLong) := by
  have haccept : ∀ sources place w,
      FailsOnly Fault.IsBuild (Action.ofExcept .build (acceptSources sources place)) w := by
    intro sources place w
    cases h : acceptSources sources place with
    | ok sources => exact failsOnly_of_ok rfl
    | error e => exact (failsOnly_iff_of_error rfl).mpr (Fault.isBuild_build e)
  have hdiscover : FailsOnly Fault.IsBuild (discoverSources r.projectDir r.sources) w ↔
      (r.sources = none → w.disk.locate (sourceDir r.projectDir) ≠ .error .nameTooLong) := by
    unfold discoverSources
    cases hs : r.sources with
    | some sources =>
        exact iff_of_true (haccept _ _ _) fun h => absurd h (Option.some_ne_none sources)
    | none =>
        dsimp only
        rw [failsOnly_bind_iff, and_iff_left fun _ _ _ => haccept _ _ _,
          forall_prop_of_true rfl]
        cases hl : w.disk.list (sourceDir r.projectDir) sourceSuffix with
        | ok sources =>
            refine iff_of_true (failsOnly_of_ok (ask_of_ok hl)) fun hlong => ?_
            cases hl.symm.trans (Disk.list_eq_error_iff.mpr ⟨hlong, rfl⟩)
        | error e =>
            rw [failsOnly_iff_of_error (ask_of_error hl)]
            exact iff_of_false (Fault.not_isBuild_file e)
              (not_not_intro (Disk.list_eq_error_iff.mp hl).1)
  rw [Builder.findSources]
  rcases requireTranslator_cases b w with ⟨hin, hreq⟩ | ⟨hout, f, hreq, hf⟩
  · rw [failsOnly_bind_of_ok hreq, failsOnly_bind_iff, forall_prop_of_true hin, ← hdiscover]
    refine and_iff_left fun sources w' _ => ?_
    obtain ⟨w'', -, hrun⟩ :=
      (shows_step_of_printable 3 (printable_sources hprintable _)).bind_apply _ w'
    exact failsOnly_of_ok hrun
  · obtain rfl := hf ht
    refine iff_of_true ((failsOnly_iff_of_error (bind_of_error hreq)).mpr ⟨_, rfl⟩) ?_
    simp [hout]

theorem failsOnly_prepare_iff {b : Builder} {r : Request} {w : World} (hrooted : r.Rooted)
    (ht : b.translator.binary.isText = true) (hprintable : b.Printable r) :
    FailsOnly Fault.IsBuild (b.prepare r) w ↔
      Disk.hasNull (r.sketchDir r.root).toString = false ∧
        ((w.disk.makePath (r.sketchDir r.root)).1 = none →
          Tool.installed (r.preparedDisk w.disk) w.env b.translator.binary = true →
          r.sources = none →
          (r.preparedDisk w.disk).locate (sourceDir r.projectDir) ≠ .error .nameTooLong) := by
  obtain ⟨w₁, hq, hrun⟩ := makeRoom_of_rooted hprintable hrooted w
  rw [Builder.prepare, failsOnly_congr (bind_congr hrun), bind_assoc, Request.preparedDisk,
    ← hq.disk, ← hq.trail.env]
  simp only [pure_bind]
  rcases hm : w₁.disk.makePath (r.sketchDir r.root) with ⟨failure, d⟩
  cases failure with
  | none =>
      have hnull := failsOnly_makeSketchDir_iff.mp (failsOnly_of_ok (makeSketchDir_of_none hm))
      rw [failsOnly_bind_of_ok (makeSketchDir_of_none hm), failsOnly_bind_iff,
        failsOnly_findSources_iff ht hprintable, and_iff_right hnull, forall_prop_of_true rfl]
      exact and_iff_left fun _ _ _ => failsOnly_of_ok rfl
  | some e =>
      obtain ⟨f, herr⟩ := makeSketchDir_of_some hm
      rw [failsOnly_iff_of_error (bind_of_error herr),
        and_iff_left fun h => absurd h (Option.some_ne_none e),
        ← failsOnly_makeSketchDir_iff, failsOnly_iff_of_error herr]

end Build

/-! ## Compiling -/

namespace Compiler

/-- Firmware can be looked for in any directory that is well named. -/
theorem exists_findFirmware {dir : Path} (h : Disk.WellNamed dir) (w : World) :
    ∃ found, findFirmware dir w = .ok found w := by
  unfold findFirmware
  induction firmwareSuffixes with
  | nil => exact ⟨none, rfl⟩
  | cons suffix rest ih =>
      obtain ⟨ps, hps⟩ := h.exists_list w.disk suffix
      rw [firstWith, bind_of_ok (ask_of_ok hps)]
      cases ps with
      | nil => exact ih
      | cons p ps => exact ⟨some p, rfl⟩

/-- **Compiling a sketch** stops with a failure of the build exactly if the directory for what is
made can be made. -/
theorem failsOnly_compile_iff {c : Compiler} (hc : c.binary.isWord = true)
    {sketch : Sketch.Checked} (fqbn : String) (buildPath : Path) {w : World}
    (htools : Tool.Orderly w.tools) (hnamed : Disk.WellNamed sketch.dir) :
    FailsOnly Fault.IsBuild (c.compile sketch fqbn buildPath) w ↔
      (w.disk.makePath buildPath).1 = none := by
  have hrun : ∀ {w' : World}, w'.tools = w.tools →
      FailsOnly Fault.IsBuild (c.run sketch fqbn buildPath) w' := by
    intro w' hw'
    have hwords := Json.words_toStr (isWord_of_mem_command hc sketch fqbn buildPath)
    refine FailsOnly.tryCatch
      (Tool.Orderly.failsOnly_run (hw' ▸ htools) _ _ hwords (by simp [command])) ?_
    rintro f ⟨m, rfl⟩
    exact ⟨_, rfl, Fault.isBuild_build _⟩
  rcases hm : w.disk.makePath buildPath with ⟨failure, d⟩
  cases failure with
  | some e =>
      refine iff_of_false (fun h => ?_) (Option.some_ne_none e)
      exact Fault.not_isBuild_file e (h _ _ (bind_of_error (makePath_of_some hm)))
  | none =>
      refine iff_of_true ?_ rfl
      have hbuildPath := Disk.wellNamed_of_stat (Disk.makePath_made hm).stat
      obtain ⟨outputs, houtputs⟩ := hnamed.exists_list d Sketch.outputSuffix
      have hask : Sketch.outputs sketch.dir { w with disk := d } =
          .ok outputs { w with disk := d } := ask_of_ok houtputs
      rw [compile, failsOnly_bind_of_ok (makePath_of_none hm), failsOnly_bind_of_ok hask]
      obtain ⟨w₁, hq₁, hrun₁⟩ := (Shows.log .info _).bind_apply _ { w with disk := d }
      rw [failsOnly_congr hrun₁, failsOnly_bind_iff]
      refine ⟨hrun hq₁.trail.tools, fun o w₂ _ => ?_⟩
      dsimp only
      split
      · -- the messages of the compiler can always be read
        exact (failsOnly_iff_of_error rfl).mpr (Fault.isBuild_build _)
      · obtain ⟨w₃, -, hrun₃⟩ := (Shows.print _).ite_bind_apply
          ((c.verbose && !o.stdout.isEmpty) = true) _ w₂
        obtain ⟨found, hfound⟩ := exists_findFirmware hbuildPath w₃
        rw [failsOnly_congr hrun₃]
        exact failsOnly_of_ok hfound

end Compiler

namespace Build

/-- The check of a well named sketch stops with a failure of the build. -/
theorem failsOnly_checkSketch {dir : Path} (hnamed : Disk.WellNamed dir) (outputs : List Path)
    (w : World) : FailsOnly Fault.IsBuild (checkSketch dir outputs) w := by
  refine FailsOnly.tryCatch (Sketch.failsOnly_check hnamed outputs w) ?_
  rintro f ⟨e, rfl⟩
  exact ⟨_, rfl, Fault.isBuild_build _⟩

theorem failsOnly_compileSketch_iff (c : Compiler) {sketch : Sketch.Checked} (fqbn : String)
    (cache : Path) (result : Result) {w : World} :
    FailsOnly Fault.IsBuild (compileSketch c sketch fqbn cache result) w ↔
      FailsOnly Fault.IsBuild (c.compile sketch fqbn cache) w := by
  refine failsOnly_tryCatch_iff fun f => ?_
  split
  · exact ⟨_, rfl, iff_of_true (Fault.isBuild_build _) (Fault.isBuild_build _)⟩
  · exact ⟨_, rfl, Iff.rfl⟩

/-- Compiling what was translated comes to make a directory for the compiler if the board is in the
catalog and the sketch passes the check. This alone can stop it otherwise than with a failure of the
build. -/
theorem failsOnly_compile_iff {b : Builder} (hc : b.compiler.binary.isWord = true) (root : Path)
    {result : Result} {w : World} (htools : Tool.Orderly w.tools)
    (hnamed : Disk.WellNamed result.sketchDir) :
    FailsOnly Fault.IsBuild (b.compile root result) w ↔
      ((Board.ofStr? result.board).isSome = true →
        Sketch.Accepted w.disk result.sketchDir result.outputs →
        (w.disk.makePath (root.child cacheName)).1 = none) := by
  unfold Builder.compile
  cases Board.ofStr? result.board with
  | none => exact iff_of_true ((failsOnly_iff_of_error rfl).mpr (Fault.isBuild_build _)) nofun
  | some board =>
      dsimp only
      rw [Option.isSome_some, forall_prop_of_true rfl]
      obtain ⟨w₁, hq₁, hrun₁⟩ := (shows_step b 5 _).bind_apply _ w
      rw [failsOnly_congr hrun₁, ← hq₁.disk]
      by_cases haccepted : Sketch.Accepted w₁.disk result.sketchDir result.outputs
      · obtain ⟨sketch, w₂, hcheck⟩ := Sketch.check_ok_iff.mpr haccepted
        replace hcheck : checkSketch result.sketchDir result.outputs w₁ = .ok sketch w₂ :=
          tryCatch_of_ok hcheck
        obtain ⟨rfl, hdir, -⟩ := checkSketch_eq_ok hcheck
        obtain ⟨w₃, hq₃, hrun₃⟩ := (shows_step b 6 _).bind_apply _ w₂
        have htools₃ : Tool.Orderly w₃.tools := (hq₁.trans hq₃).trail.tools ▸ htools
        rw [failsOnly_bind_of_ok hcheck, failsOnly_congr hrun₃, failsOnly_bind_iff,
          failsOnly_compileSketch_iff,
          Compiler.failsOnly_compile_iff hc _ _ htools₃ (hdir ▸ hnamed), hq₃.disk,
          forall_prop_of_true haccepted]
        refine and_iff_left fun firmware w₄ _ => ?_
        obtain ⟨w₅, -, hrun₅⟩ := (Shows.log .warning _).ite_bind_apply
          (firmware.isNone = true) _ w₄
        exact failsOnly_of_ok hrun₅
      · refine iff_of_true ?_ fun h => absurd h haccepted
        refine failsOnly_bind_iff.mpr ⟨failsOnly_checkSketch hnamed _ _, fun sketch w₂ hcheck => ?_⟩
        exact absurd (checkSketch_eq_ok hcheck).2.2 haccepted

/-! ## What is in the way -/

/-- The compiler's directory has a path that is not too long, at which no file stands. -/
structure CacheUnblocked (d : Disk) (root : Path) : Prop where
  spellable : Disk.Spellable (root.child cacheName)
  free : ∀ c x, d.stat (root.child cacheName) ≠ .ok (.file c x)

/-- Beside a sketch that was made, the compiler's directory can be made if nothing was in its way
before. -/
theorem makePath_cache_iff {b : Builder} {root : Path} {result : Result} {n : String}
    {w w' : World} (h : b.assemble result w = .ok () w')
    (hs : w.disk.stat result.sketchDir = .ok .directory) (hdir : result.sketchDir = root.child n)
    (h1 : n ≠ ".") (h2 : n ≠ "..") :
    (w'.disk.makePath (root.child cacheName)).1 = none ↔ CacheUnblocked w.disk root := by
  have ht : w.disk.target result.sketchDir = ⟨(w.disk.target root).loc ++ [n], 0⟩ := by
    rw [hdir]
    exact Disk.target_child h1 h2
  obtain ⟨hconf, -, -⟩ := assemble_leaves h hs (by rw [ht])
  have hs' := hconf.stat_directory_iff.mpr hs
  rw [hdir] at hs'
  obtain ⟨-, hp, -⟩ := Disk.stat_eq_ok_iff.mp hs'
  obtain ⟨hp, hocc, htakes⟩ := Disk.passable_child.mp hp
  rw [Disk.makePath_child_iff hp hocc (Disk.lost_eq_zero_of_takes htakes h1 h2) (by decide)]
  -- making the sketch changes nothing beside it
  have hfree : ∀ e, w'.disk.stat (root.child cacheName) = .ok e ↔
      w.disk.stat (root.child cacheName) = .ok e := by
    intro e
    refine hconf.stat_eq_ok_iff fun m _ heq => ?_
    rw [ht, Disk.target_child (by decide) (by decide)] at heq
    simpa using congrArg List.length heq
  simp only [ne_eq, hfree]
  exact ⟨fun h => ⟨h.1, h.2⟩, fun h => ⟨h.1, h.2⟩⟩

/-- A sketch that cannot be made stops a build with what the system says. -/
theorem failsOnly_assemble (b : Builder) (result : Result) (w : World) :
    FailsOnly (fun f => ∃ e, f = .file e) (b.assemble result) w := by
  refine failsOnly_bind_iff.mpr ⟨?_, fun _ w₁ _ => ?_⟩
  · refine failsOnly_bind_iff.mpr ⟨?_, fun stale w₁ _ =>
      (Shows.forM (fun _ => .log _ _) stale).failsOnly w₁⟩
    refine failsOnly_bind_iff.mpr ⟨failsOnly_ask _ w, fun outputs w₁ _ => ?_⟩
    refine failsOnly_bind_iff.mpr ⟨?_, fun _ w₂ _ => failsOnly_of_ok rfl⟩
    exact failsOnly_forM (fun p => failsOnly_change _) _ w₁
  · refine failsOnly_bind_iff.mpr ⟨?_, fun _ w₂ _ => (shows_step b 4 _).failsOnly w₂⟩
    exact failsOnly_bind_iff.mpr ⟨failsOnly_change _ w₁, fun _ w₂ _ => failsOnly_of_ok rfl⟩

theorem failsOnly_assemble_iff {b : Builder} {result : Result} {w : World} :
    FailsOnly Fault.IsBuild (b.assemble result) w ↔ ∃ w', b.assemble result w = .ok () w' := by
  cases h : b.assemble result w with
  | ok _ w' => exact iff_of_true (failsOnly_of_ok h) ⟨w', rfl⟩
  | error f w' =>
      obtain ⟨e, rfl⟩ := failsOnly_assemble b result w f w' h
      rw [failsOnly_iff_of_error h]
      exact iff_of_false (Fault.not_isBuild_file e) (by simp)

/-- **Finishing a build** stops with a failure of the build exactly if nothing is in the way of the
sketch and, where it comes to compile a complete one, of the compiler's directory. -/
theorem failsOnly_finish_iff {b : Builder} {r : Request} {root : Path} {result : Result}
    {n : String} {w : World} (hc : b.compiler.binary.isWord = true)
    (htools : Tool.Orderly w.tools)
    (hnamed : Disk.WellNamed result.sketchDir) (hdir : result.sketchDir = root.child n)
    (hn : Sketch.IsIdentifier n)
    (houtputs : ∀ p ∈ result.outputs, Text.endsWith p.name Sketch.outputSuffix = true) :
    FailsOnly Fault.IsBuild (b.finish r root result) w ↔
      Sketch.Unblocked w.disk result.sketchDir result.outputs ∧
        (r.compile = true → (Board.ofStr? result.board).isSome = true →
          Sketch.Complete w.disk result.sketchDir result.outputs → CacheUnblocked w.disk root) := by
  have h1 : n ≠ "." := hn.ne_dot rfl
  have h2 : n ≠ ".." := hn.ne_dot rfl
  have h0 : (w.disk.target result.sketchDir).lost = 0 := by
    rw [hdir, Disk.target_child h1 h2]
  unfold Builder.finish
  by_cases hfree : Sketch.Unblocked w.disk result.sketchDir result.outputs
  · obtain ⟨w', h⟩ := (assemble_ok_iff (b := b) hnamed h0).mpr hfree
    rw [failsOnly_bind_of_ok h, and_iff_right hfree]
    cases r.compile with
    | false => exact iff_of_true (failsOnly_of_ok rfl) nofun
    | true =>
        have htools' : Tool.Orderly w'.tools := by
          have ht := silent_assemble b result w
          rw [after_of_ok h] at ht
          exact ht.tools ▸ htools
        have hname : result.sketchDir.name ≠ "" := by
          rw [hdir, Path.name_child]
          exact Sketch.IsIdentifier.ne_empty hn
        rw [if_pos rfl, forall_prop_of_true rfl, failsOnly_compile_iff hc root htools' hnamed,
          accepted_iff_complete h hfree.isDirectory h0 hname houtputs,
          makePath_cache_iff h hfree.isDirectory hdir h1 h2]
  · refine iff_of_false (fun hfinish => ?_) fun hboth => hfree hboth.1
    exact hfree ((assemble_ok_iff hnamed h0).mp
      (failsOnly_assemble_iff.mp (failsOnly_bind_iff.mp hfinish).1))

/-! ## The whole build -/

/-- The part of a build before the sketch is made of what was translated. -/
def Builder.translateSources (b : Builder) (r : Request) : Action (List Translator.Outcome) := do
  let (root, sources) ← b.prepare r
  translateAll b.translator (r.sketchDir root) (b.boardFor r) r.wantsSourceMap sources

theorem build_apply (b : Builder) (r : Request) (w : World) :
    b.build r w = (b.translateSources r >>= fun done => b.finish r r.root
      (.ofTranslation (r.sketchDir r.root) (b.boardFor r) done)) w := by
  unfold Builder.translateSources
  rw [bind_assoc]
  rcases prepare_cases b r w with ⟨w₁, -, hprep, -⟩ | ⟨-, f, w₁, hprep, -⟩
  · rw [build_of_prepare hprep, bind_of_ok hprep]
  · rw [bind_of_error hprep]
    exact bind_of_error hprep

/-- What is known when all sources are translated. -/
theorem translateSources_eq_ok {b : Builder} {r : Request} {w w' : World}
    {done : List Translator.Outcome} (h : b.translateSources r w = .ok done w') :
    Disk.WellNamed (r.sketchDir r.root) ∧ w'.tools = w.tools ∧
      ∀ p ∈ done.map (·.output), Text.endsWith p.name Sketch.outputSuffix = true := by
  rcases prepare_cases b r w with ⟨w₁, hready, hprep, ht₁, -⟩ | ⟨-, f, w₁, hprep, -⟩
  · obtain ⟨runs, w₂, ht₂, -, hcases⟩ := translateAll_runs b.translator (b.boardFor r)
      (r.sketchDir r.root) r.wantsSourceMap (r.foundSources w.disk) w₁
    replace h := (bind_of_ok hprep).symm.trans h
    rcases hcases with ⟨done', hok, houtputs⟩ | ⟨f, herr⟩
    · cases hok.symm.trans h
      refine ⟨Disk.wellNamed_of_stat hready.prepared.stat, (ht₁.silent_trans ht₂).tools, ?_⟩
      rw [houtputs]
      rintro p hp
      obtain ⟨source, -, rfl⟩ := List.mem_map.mp hp
      rw [Sketch.outputOf, Path.name_child]
      exact endsWith_outputName source
    · cases herr.symm.trans h
  · cases (bind_of_error hprep).symm.trans h

/-- **Translating the sources of a build** stops with a failure of the build exactly if the paths it
is given can be used and all messages of the translator can be read. -/
theorem failsOnly_translateSources_iff {b : Builder} {r : Request} {w : World}
    (ht : b.translator.binary.isText = true) (hb : (b.boardFor r).isText = true)
    (htools : Tool.Orderly w.tools) :
    FailsOnly Fault.IsBuild (b.translateSources r) w ↔
      FailsOnly Fault.IsBuild (b.prepare r) w ∧
        ∀ s response, (b.translateSources r).Started w s response →
          Translator.Legible response := by
  rcases prepare_cases b r w with ⟨w₁, -, hprep, ht₁, -⟩ | ⟨-, f, w₁, hprep, ht₁⟩
  · have hrun : b.translateSources r w = translateAll b.translator (r.sketchDir r.root)
        (b.boardFor r) r.wantsSourceMap (r.foundSources w.disk) w₁ := bind_of_ok hprep
    have hpast : w₁.past = w.past := by simpa using ht₁.past
    rw [and_iff_right (failsOnly_of_ok hprep), failsOnly_congr hrun,
      failsOnly_translateAll_iff ht hb _ _ _ (ht₁.tools ▸ htools)]
    -- the preparation starts nothing
    simp only [Started, after_congr hrun, hpast, ht₁.tools]
  · have herr : b.translateSources r w = .error f w₁ := bind_of_error hprep
    rw [failsOnly_iff_of_error herr, failsOnly_iff_of_error hprep]
    refine (and_iff_left fun s response hstarted => ?_).symm
    obtain ⟨before, after, hnil, -⟩ := (started_iff (after_of_error herr ▸ ht₁)).mp hstarted
    cases before <;> cases hnil

/-- Nothing stands in the way of a build that it does not report itself: the paths of the output
directory and of the sources can be used, the messages of the translator can be read, and on the
disk that the translator left nothing blocks the sketch or, if a complete sketch is to be compiled,
the compiler's directory. -/
structure Builder.Unhindered (b : Builder) (r : Request) (w : World) : Prop where
  noNull : Disk.hasNull (r.sketchDir r.root).toString = false
  sources : (w.disk.makePath (r.sketchDir r.root)).1 = none →
    Tool.installed (r.preparedDisk w.disk) w.env b.translator.binary = true → r.sources = none →
    (r.preparedDisk w.disk).locate (sourceDir r.projectDir) ≠ .error .nameTooLong
  legible : ∀ s response, (b.translateSources r).Started w s response →
    Translator.Legible response
  sketch : ∀ done w', b.translateSources r w = .ok done w' →
    Sketch.Unblocked w'.disk (r.sketchDir r.root) (done.map (·.output))
  cache : ∀ done w', b.translateSources r w = .ok done w' → r.compile = true →
    (Board.find? (b.boardFor r).display).isSome = true →
    Sketch.Complete w'.disk (r.sketchDir r.root) (done.map (·.output)) →
    CacheUnblocked w'.disk r.root

/-- **Which builds fail only as a build.** With a board, tools and an output directory that are
named by texts, and with tools that are found or not and run to their end, a build either succeeds
or stops with a failure that it reports itself, exactly if it is unhindered. -/
theorem Builder.fails_only_as_build_iff {b : Builder} {r : Request} {w : World}
    (ht : b.translator.binary.isText = true) (hc : b.compiler.binary.isText = true)
    (hb : (b.boardFor r).isText = true) (hrooted : r.Rooted) (htools : Tool.Orderly w.tools) :
    FailsOnly Fault.IsBuild (b.build r) w ↔ b.Unhindered r w := by
  have hfinish : ∀ done w', b.translateSources r w = .ok done w' →
      (FailsOnly Fault.IsBuild (b.finish r r.root
          (.ofTranslation (r.sketchDir r.root) (b.boardFor r) done)) w' ↔
        Sketch.Unblocked w'.disk (r.sketchDir r.root) (done.map (·.output)) ∧
          (r.compile = true → (Board.find? (b.boardFor r).display).isSome = true →
            Sketch.Complete w'.disk (r.sketchDir r.root) (done.map (·.output)) →
            CacheUnblocked w'.disk r.root)) := by
    intro done w' h
    obtain ⟨hnamed, htools', houtputs⟩ := translateSources_eq_ok h
    have hboard : Board.ofStr? (b.boardFor r).toStr = Board.find? (b.boardFor r).display := by
      rw [Json.toStr_of_isWord (Json.isWord_of_isText hb)]
      rfl
    rw [← hboard]
    exact failsOnly_finish_iff (Json.isWord_of_isText hc) (htools' ▸ htools) hnamed rfl
      (Sketch.isIdentifier_nameFor _) houtputs
  rw [failsOnly_congr (build_apply b r w), failsOnly_bind_iff,
    failsOnly_translateSources_iff ht hb htools,
    failsOnly_prepare_iff hrooted ht fun _ => Json.isWord_of_isText hb]
  constructor
  · rintro ⟨⟨⟨hnull, hsources⟩, hlegible⟩, hall⟩
    exact ⟨hnull, hsources, hlegible,
      fun done w' h => ((hfinish done w' h).mp (hall done w' h)).1,
      fun done w' h => ((hfinish done w' h).mp (hall done w' h)).2⟩
  · rintro ⟨hnull, hsources, hlegible, hsketch, hcache⟩
    exact ⟨⟨⟨hnull, hsources⟩, hlegible⟩,
      fun done w' h => (hfinish done w' h).mpr ⟨hsketch done w' h, hcache done w' h⟩⟩

/-! ## The sample project, blocked -/

namespace Sample

theorem orderly_compilerTools (name : String) : Tool.Orderly (compilerTools name) := by
  have hexits : ∀ past i d, ∃ code, (compilerTools name past i d).outcome =
      .ok ⟨1, .empty, .exited code [] []⟩ := by
    intro past i d
    unfold compilerTools
    split
    · split <;> exact ⟨_, rfl⟩
    · unfold tools
      dsimp only
      split
      · exact ⟨_, rfl⟩
      · split
        · exact ⟨_, rfl⟩
        · split <;> exact ⟨_, rfl⟩
  constructor
  · intro past i d r hr
    obtain ⟨code, hcode⟩ := hexits past i d
    cases hcode.symm.trans hr
  · intro past i d q hq
    obtain ⟨code, hcode⟩ := hexits past i d
    cases hcode.symm.trans hq
    simp

/-- The project with its output directory and some entries in it. -/
def blockedWorld (inside : List (Location × Entry)) : World :=
  { compilerWorld "blink.ino.bin" [] with
    disk := ⟨.ofList (entries ++ (["p", "build"], .directory) :: inside), ⟨[], 0⟩, rfl⟩ }

end Sample

/-- The sample project, with firmware from before in its build directory, is built unhindered. -/
theorem Builder.fails_only_as_build_compiled :
    let b := Builder.ofSettings Sample.settings false
    let r := Sample.compileRequest
    let w := Sample.compilerWorld "blink.ino.bin" ["blink.ino.hex"]
    b.translator.binary.isText = true ∧ b.compiler.binary.isText = true ∧
      (b.boardFor r).isText = true ∧ r.Rooted ∧ Tool.Orderly w.tools ∧ b.Unhindered r w := by
  intro b r w
  have hrooted : r.Rooted := .inr rfl
  have htools : Tool.Orderly w.tools := Sample.orderly_compilerTools "blink.ino.bin"
  obtain ⟨result, hresult⟩ : ∃ result, (b.build r).value? w = some result :=
    Option.isSome_iff_exists.mp (by decide +kernel)
  exact ⟨rfl, rfl, rfl, hrooted, htools,
    (Builder.fails_only_as_build_iff rfl rfl rfl hrooted htools).mp
      (failsOnly_of_ok (value?_eq_some_iff.mp hresult))⟩

/-- Though all tools are found and run to their end, what the system says goes through where a
directory has the name of a stale output or of the entry point, and where a file has the name of the
compiler's directory. -/
theorem Builder.blocked_paths_go_through :
    let b := Builder.ofSettings Sample.settings false
    let r := Sample.compileRequest
    let dir := r.sketchDir r.root
    let sketchLoc := ["p", "build", "blink"]
    (∀ entries, Tool.Orderly (Sample.blockedWorld entries).tools) ∧
    (∃ w', b.build r (Sample.blockedWorld
        [(sketchLoc, .directory), (sketchLoc ++ ["old.cpp"], .directory)]) =
      .error (.file (.on .isDirectory (dir.child "old.cpp"))) w') ∧
    (∃ w', b.build r (Sample.blockedWorld
        [(sketchLoc, .directory), (sketchLoc ++ ["blink.ino"], .directory)]) =
      .error (.file (.on .isDirectory (dir.child "blink.ino"))) w') ∧
    ∃ w', b.build r (Sample.blockedWorld [(Sample.cacheLoc, .file [] false)]) =
      .error (.file (.on .alreadyExists (r.root.child cacheName))) w' := by
  intro b r dir sketchLoc
  exact ⟨fun _ => Sample.orderly_compilerTools "blink.ino.bin",
    ⟨_, refusal?_eq_some_iff.mp (by decide +kernel)⟩,
    ⟨_, refusal?_eq_some_iff.mp (by decide +kernel)⟩,
    ⟨_, refusal?_eq_some_iff.mp (by decide +kernel)⟩⟩

end Build

end SketchBuild
