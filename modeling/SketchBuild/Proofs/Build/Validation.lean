import SketchBuild.Proofs.Build.Documented

/-! # Why a sketch fails its check

A sketch is checked right after it was assembled. Its directory is there then, with the entry point
that belongs to it and without stale outputs, whatever was in it before. So of all the complaints of
the check two are left: another entry point, and an output that the translator did not write
although it succeeded (`Builder.check_fails_for_two_reasons`). -/

namespace SketchBuild

open SketchBuild.Action

/-! ## Checking what was assembled -/

namespace Sketch

theorem mem_namesOnlyIn {n : String} {xs ys : List String} :
    n ∈ namesOnlyIn xs ys ↔ n ∈ xs ∧ n ∉ ys := by
  rw [namesOnlyIn, List.mem_eraseDups, Text.mem_inOrder, List.mem_filter]
  simp

/-- The directory holds an entry point that does not belong to it. -/
def HasOther (d : Disk) (dir : Path) : Prop :=
  ∃ n, Text.endsWith n entrySuffix = true ∧ n ≠ dir.name ++ entrySuffix ∧ d.HasEntry dir n

/-- A sketch directory with its own entry point and without stale outputs. -/
structure Assembled (d : Disk) (dir : Path) (outputs : List Path) : Prop where
  named : dir.name ≠ ""
  isDirectory : d.stat dir = .ok .directory
  present : (d.target dir).lost = 0
  entry : d.HasEntry dir (dir.name ++ entrySuffix)
  clean : ∀ n, Text.endsWith n outputSuffix = true → d.HasEntry dir n →
    n ∈ outputs.map Path.name
  suffix : ∀ p ∈ outputs, Text.endsWith p.name outputSuffix = true

namespace Assembled

variable {w : World} {dir : Path} {outputs : List Path} (h : Assembled w.disk dir outputs)
include h

theorem mem_list {suffix : String} {ps : List Path} (hl : w.disk.list dir suffix = .ok ps)
    {n : String} :
    n ∈ ps.map Path.name ↔ Text.endsWith n suffix = true ∧ w.disk.HasEntry dir n := by
  rw [Disk.list_of_stat h.isDirectory] at hl
  cases hl
  rw [List.map_map, Place.childNames, if_pos h.present]
  simp [Disk.HasEntry, Tree.mem_childNames, and_comm]

/-- The directory's own entry point is the one that there is, or all that there are are told. -/
theorem soleEntryPoint_cases :
    (¬ HasOther w.disk dir ∧ soleEntryPoint dir w = .ok (entryPoint dir) w) ∨
    (HasOther w.disk dir ∧ ∃ names,
      (∀ n, n ∈ names ↔ Text.endsWith n entrySuffix = true ∧ w.disk.HasEntry dir n) ∧
      soleEntryPoint dir w = .error (.sketch (.severalEntryPoints dir names)) w) := by
  by_cases hother : HasOther w.disk dir
  · refine Or.inr ⟨hother, ?_⟩
    obtain ⟨n, hends, hne, hn⟩ := hother
    obtain ⟨ps, hlist⟩ : ∃ ps, w.disk.list dir entrySuffix = .ok ps :=
      ⟨_, Disk.list_of_stat h.isDirectory entrySuffix⟩
    have hn' := (h.mem_list hlist).mpr ⟨hends, hn⟩
    have hown := (h.mem_list hlist).mpr ⟨endsWith_entryName dir, h.entry⟩
    refine ⟨ps.map Path.name, fun m => h.mem_list hlist, ?_⟩
    rw [soleEntryPoint, bind_of_ok (ask_of_ok hlist)]
    -- both entry points are among those listed, so there are two at least
    rcases ps with _ | ⟨p, _ | ⟨q, ps⟩⟩
    · cases hn'
    · exact absurd ((List.mem_singleton.mp hn').trans (List.mem_singleton.mp hown).symm) hne
    · rfl
  · refine Or.inl ⟨hother, ?_⟩
    have hlist : w.disk.list dir entrySuffix = .ok [entryPoint dir] := by
      have hnames : ∀ n, n ∈ (w.disk.target dir).childNames w.disk.tree ↔
          w.disk.HasEntry dir n := by
        intro n
        rw [Place.childNames, if_pos h.present]
        exact (Disk.hasEntry_iff rfl).symm
      refine Disk.list_eq_singleton h.isDirectory (endsWith_entryName dir)
        ((hnames _).mpr h.entry) fun m hm hends => ?_
      by_contra hne
      exact hother ⟨m, hends, hne, (hnames m).mp hm⟩
    have hstem : (entryPoint dir).stem = dir.name := by
      rw [Path.stem, entryPoint, Path.name_child]
      exact stemOf_append_entrySuffix h.named
    rw [soleEntryPoint, bind_of_ok (ask_of_ok hlist)]
    dsimp only
    rw [if_pos hstem]
    rfl

/-- The outputs are all there, or some are missing. -/
theorem requireOutputs_cases :
    ((∀ p ∈ outputs, w.disk.HasEntry dir p.name) ∧ requireOutputs dir outputs w = .ok () w) ∨
    ∃ absent, absent ≠ [] ∧
      (∀ n, n ∈ absent ↔ n ∈ outputs.map Path.name ∧ ¬ w.disk.HasEntry dir n) ∧
      requireOutputs dir outputs w = .error (.sketch (.wrongOutputs dir [] absent)) w := by
  obtain ⟨ps, hlist⟩ : ∃ ps, w.disk.list dir outputSuffix = .ok ps :=
    ⟨_, Disk.list_of_stat h.isDirectory outputSuffix⟩
  have hask : Sketch.outputs dir w = .ok ps w := ask_of_ok hlist
  have hunexpected : namesOnlyIn (ps.map Path.name) (outputs.map Path.name) = [] := by
    refine namesOnlyIn_eq_nil_iff.mpr fun n hn => ?_
    obtain ⟨hends, hn⟩ := (h.mem_list hlist).mp hn
    exact h.clean n hends hn
  have habsent : ∀ n, n ∈ namesOnlyIn (outputs.map Path.name) (ps.map Path.name) ↔
      n ∈ outputs.map Path.name ∧ ¬ w.disk.HasEntry dir n := by
    intro n
    rw [mem_namesOnlyIn, h.mem_list hlist]
    refine and_congr_right fun hn => not_congr (and_iff_right ?_)
    obtain ⟨p, hp, rfl⟩ := List.mem_map.mp hn
    exact h.suffix p hp
  rw [requireOutputs, bind_of_ok hask, hunexpected]
  cases hnames : namesOnlyIn (outputs.map Path.name) (ps.map Path.name) with
  | nil =>
      refine Or.inl ⟨fun p hp => ?_, rfl⟩
      by_contra hnot
      have hin := (habsent p.name).mpr ⟨List.mem_map_of_mem hp, hnot⟩
      rw [hnames] at hin
      cases hin
  | cons n ns =>
      rw [hnames] at habsent
      exact Or.inr ⟨n :: ns, List.cons_ne_nil _ _, habsent, rfl⟩

/-- **What was assembled** passes the check, or holds another entry point, or lacks an output. -/
theorem check_cases :
    (¬ HasOther w.disk dir ∧ (∀ p ∈ outputs, w.disk.HasEntry dir p.name) ∧
      check dir (some outputs) w = .ok ⟨dir, entryPoint dir⟩ w) ∨
    (HasOther w.disk dir ∧ ∃ names,
      (∀ n, n ∈ names ↔ Text.endsWith n entrySuffix = true ∧ w.disk.HasEntry dir n) ∧
      check dir (some outputs) w = .error (.sketch (.severalEntryPoints dir names)) w) ∨
    (¬ HasOther w.disk dir ∧ ∃ absent, absent ≠ [] ∧
      (∀ n, n ∈ absent ↔ n ∈ outputs.map Path.name ∧ ¬ w.disk.HasEntry dir n) ∧
      check dir (some outputs) w = .error (.sketch (.wrongOutputs dir [] absent)) w) := by
  have hthere := Disk.isDirectory?_eq_true_iff.mpr h.isDirectory
  rw [check, bind_of_ok (ask_of_ok hthere)]
  rcases h.soleEntryPoint_cases with ⟨hnone, hsole⟩ | ⟨hother, names, hnames, hsole⟩
  · rcases h.requireOutputs_cases with ⟨hall, hrequire⟩ | ⟨absent, hne, hmem, hrequire⟩
    · exact Or.inl ⟨hnone, hall, (bind_of_ok hsole).trans (bind_of_ok hrequire)⟩
    · exact Or.inr (Or.inr ⟨hnone, absent, hne, hmem,
        (bind_of_ok hsole).trans (bind_of_error hrequire)⟩)
  · exact Or.inr (Or.inl ⟨hother, names, hnames, bind_of_error hsole⟩)

end Assembled

end Sketch

namespace Build

/-! ## A build up to the check -/

/-- A sketch that is made and not yet checked, with the output directory and the board. -/
structure Unchecked where
  root : Path
  board : Board
  result : Result

/-- A build that is to compile, up to the check of its sketch. -/
def Builder.untilCheck (b : Builder) (r : Request) : Action Unchecked := do
  let (root, sources) ← b.prepare r
  let done ← translateAll b.translator (r.sketchDir root) (b.boardFor r) r.wantsSourceMap sources
  let result := Result.ofTranslation (r.sketchDir root) (b.boardFor r) done
  b.assemble result
  let some board := Board.ofStr? result.board | throw (.build (.unknownBoard result.board))
  b.step 5 s!"FQBN: {board.fqbn}"
  return ⟨root, board, { result with fqbn := some board.fqbn }⟩

/-- A build that is to compile, after the check of its sketch. -/
def Builder.afterCheck (b : Builder) (u : Unchecked) (sketch : Sketch.Checked) :
    Action Result := do
  let cache := u.root.child cacheName
  b.step 6 s!"Compiling into {cache}"
  let firmware ← compileSketch b.compiler sketch u.board.fqbn cache u.result
  if firmware.isNone then Action.log .warning s!"No firmware artifact found in {cache}"
  return { u.result with firmware }

/-- A build that is to compile comes to the check of its sketch and goes on from there. -/
theorem build_of_compile {b : Builder} {r : Request} (h : r.compile = true) :
    b.build r = b.untilCheck r >>= fun u =>
      checkSketch u.result.sketchDir u.result.outputs >>= b.afterCheck u := by
  unfold Builder.build Builder.untilCheck Builder.finish Builder.compile
  simp only [h, if_pos, bind_assoc]
  refine bind_congr fun x => bind_congr fun done => bind_congr fun _ => ?_
  cases Board.ofStr? (Result.ofTranslation (r.sketchDir x.1) (b.boardFor r) done).board with
  | none => rfl
  | some board =>
      simp only [bind_assoc, pure_bind]
      rfl

/-- A build that came to the check has translated every source and made the sketch. -/
theorem untilCheck_eq_ok {b : Builder} {r : Request} {w v : World} {u : Unchecked}
    (h : b.untilCheck r w = .ok u v) :
    ∃ runs result w₂ w₃, b.Ready r w ∧ Trail w v runs ∧
      runs.map (·.invocation) = (r.foundSources w.disk).map (b.translation r) ∧
      Tool.AllSucceed w.tools w.past runs ∧ b.assemble result w₂ = .ok () w₃ ∧ Quiet w₃ v ∧
      result.sketchDir = r.sketchDir r.root ∧ u.result.sketchDir = r.sketchDir r.root ∧
      result.outputs = (r.foundSources w.disk).map (Sketch.outputOf (r.sketchDir r.root)) ∧
      u.result.outputs = result.outputs := by
  unfold Builder.untilCheck at h
  rcases prepare_cases b r w with ⟨w₁, hready, hprep, htr₁, -⟩ | ⟨-, f, w', hprep, -⟩
  · rw [bind_of_ok hprep] at h
    obtain ⟨done, w₂, htranslate, h⟩ := bind_eq_ok_iff.mp h
    obtain ⟨_, w₃, hassemble, h⟩ := bind_eq_ok_iff.mp h
    obtain ⟨ht, hb⟩ := isText_of_translateAll hready.found htranslate
    obtain ⟨runs, w', htr₂, ⟨done', hok, hout, hinv, hall⟩ |
        ⟨_, _, _, _, _, f, -, -, -, -, -, -, herr, -⟩⟩ :=
      translateAll_cases ht hb (r.sketchDir r.root) r.wantsSourceMap (r.foundSources w.disk) w₁
    · cases hok.symm.trans htranslate
      have htr₃ :=
        silent_assemble b (.ofTranslation (r.sketchDir r.root) (b.boardFor r) done) w₂
      rw [after_of_ok hassemble] at htr₃
      rw [htr₁.tools, htr₁.past, List.append_nil] at hall
      cases hboard : Board.ofStr?
          (Result.ofTranslation (r.sketchDir r.root) (b.boardFor r) done).board with
      | none =>
          rw [hboard] at h
          cases h
      | some board =>
          rw [hboard] at h
          obtain ⟨_, w₄, hstep, hend⟩ := bind_eq_ok_iff.mp h
          cases hend
          have hquiet := (shows_step b 5 _).quiet hstep
          exact ⟨runs, _, w₂, w₃, hready,
            (htr₁.silent_trans htr₂).trans_silent (htr₃.silent_trans hquiet.trail), hinv, hall,
            hassemble, hquiet, rfl, rfl, hout, rfl⟩
    · cases herr.symm.trans htranslate
  · rw [bind_of_error hprep] at h
    cases h

/-- What a build has made is assembled, whatever the directory held before. -/
theorem assembled_of_assemble {b : Builder} {result : Result} {w w' : World}
    (h : b.assemble result w = .ok () w') (hnamed : Disk.WellNamed result.sketchDir)
    (h0 : (w.disk.target result.sketchDir).lost = 0) (hname : result.sketchDir.name ≠ "")
    (houtputs : ∀ p ∈ result.outputs, Text.endsWith p.name Sketch.outputSuffix = true) :
    Sketch.Assembled w'.disk result.sketchDir result.outputs := by
  have hs := ((assemble_ok_iff hnamed h0).mp ⟨w', h⟩).isDirectory
  obtain ⟨hconf, hgone, x, hentry⟩ := assemble_leaves h hs h0
  have ht := Disk.target_of_cwd hconf.cwd result.sketchDir
  refine ⟨hname, hconf.stat_directory_iff.mpr hs, by rw [ht, h0], ?_, fun n hends hn => ?_,
    houtputs⟩
  · rw [Disk.HasEntry, (Disk.get?_of_stat_child hentry (Sketch.entryName_ne_dot _)
      (Sketch.entryName_ne_dotDot _)).2]
    rfl
  · by_contra hnot
    rw [Disk.HasEntry, ht, hgone n hends hnot] at hn
    cases hn

/-- The sketch of a build that came to the check is assembled. -/
theorem assembled_of_untilCheck {b : Builder} {r : Request} {w v : World} {u : Unchecked}
    (h : b.untilCheck r w = .ok u v) :
    Sketch.Assembled v.disk (r.sketchDir r.root)
      ((r.foundSources w.disk).map (Sketch.outputOf (r.sketchDir r.root))) := by
  obtain ⟨runs, result, w₂, w₃, hready, -, -, -, hassemble, hquiet, hdir, -, houtputs, -⟩ :=
    untilCheck_eq_ok h
  rw [hquiet.disk, ← houtputs, ← hdir]
  refine assembled_of_assemble hassemble ?_ ?_ ?_ ?_
  · rw [hdir]
    exact Disk.wellNamed_of_stat hready.prepared.stat
  · rw [hdir, target_sketchDir]
  · rw [hdir, Request.sketchDir, Path.name_child]
    exact (Sketch.isIdentifier_nameFor _).ne_empty
  · rw [houtputs]
    intro p hp
    obtain ⟨s, -, rfl⟩ := List.mem_map.mp hp
    rw [Sketch.outputOf, Path.name_child]
    exact endsWith_outputName s

theorem checkSketch_of_error {dir : Path} {outputs : List Path} {w w' : World} {e : Sketch.Error}
    (h : Sketch.check dir (some outputs) w = .error (.sketch e) w') :
    checkSketch dir outputs w = .error (.build (.badSketch dir e)) w' :=
  tryCatch_of_error h

/-- **A sketch fails its check for two reasons only.** When a build comes to the check, all sources
have been translated by programs that succeeded. Either there is another entry point, and the check
tells all that there are; or some outputs are not there, and the check tells these and never one
that should not be there; or the check passes. -/
theorem Builder.check_fails_for_two_reasons {b : Builder} {r : Request} {w v : World}
    {u : Unchecked} (hcompile : r.compile = true) (h : b.untilCheck r w = .ok u v) :
    let dir := r.sketchDir r.root
    let sources := r.foundSources w.disk
    let check := checkSketch dir (sources.map (Sketch.outputOf dir))
    let absent := fun n => ∃ s ∈ sources, n = outputName s ∧ ¬ v.disk.HasEntry dir n
    (∃ runs, v.past = w.past ++ runs ∧
      runs.map (·.invocation) = sources.map (b.translation r) ∧
      Tool.AllSucceed w.tools w.past runs) ∧
    b.build r w = (check >>= b.afterCheck u) v ∧
    ((¬ Sketch.HasOther v.disk dir ∧ (∀ n, ¬ absent n) ∧
        check v = .ok ⟨dir, Sketch.entryPoint dir⟩ v) ∨
      ∃ e, check v = .error (.build (.badSketch dir e)) v ∧
        b.build r w = .error (.build (.badSketch dir e)) v ∧
        ((Sketch.HasOther v.disk dir ∧ ∃ names, e = .severalEntryPoints dir names ∧
            ∀ n, n ∈ names ↔
              Text.endsWith n Sketch.entrySuffix = true ∧ v.disk.HasEntry dir n) ∨
          (¬ Sketch.HasOther v.disk dir ∧ ∃ names, e = .wrongOutputs dir [] names ∧
            names ≠ [] ∧ ∀ n, n ∈ names ↔ absent n))) := by
  intro dir sources check absent
  obtain ⟨runs, result, w₂, w₃, -, htr, hinv, hall, -, -, -, hudir, houtputs, huoutputs⟩ :=
    untilCheck_eq_ok h
  have hbuild : b.build r w = (check >>= b.afterCheck u) v := by
    rw [build_of_compile hcompile, bind_of_ok h, hudir, huoutputs, houtputs]
  have habsent : ∀ n, n ∈ (sources.map (Sketch.outputOf dir)).map Path.name ∧
      ¬ v.disk.HasEntry dir n ↔ absent n := by
    intro n
    rw [List.map_map]
    constructor
    · rintro ⟨hn, hnot⟩
      obtain ⟨s, hs, rfl⟩ := List.mem_map.mp hn
      exact ⟨s, hs, Path.name_child _ _, hnot⟩
    · rintro ⟨s, hs, rfl, hnot⟩
      exact ⟨List.mem_map.mpr ⟨s, hs, Path.name_child _ _⟩, hnot⟩
  refine ⟨⟨runs, htr.past, hinv, hall⟩, hbuild, ?_⟩
  rcases (assembled_of_untilCheck h).check_cases with
    ⟨hnone, hpresent, hcheck⟩ | ⟨hother, names, hnames, hcheck⟩ |
      ⟨hnone, names, hne, hnames, hcheck⟩
  · refine Or.inl ⟨hnone, ?_, tryCatch_of_ok hcheck⟩
    rintro n ⟨s, hs, rfl, hnot⟩
    have hthere := hpresent _ (List.mem_map_of_mem hs)
    rw [Sketch.outputOf, Path.name_child] at hthere
    exact hnot hthere
  · have herr := checkSketch_of_error hcheck
    exact Or.inr ⟨_, herr, hbuild.trans (bind_of_error herr),
      Or.inl ⟨hother, names, rfl, hnames⟩⟩
  · have herr := checkSketch_of_error hcheck
    exact Or.inr ⟨_, herr, hbuild.trans (bind_of_error herr),
      Or.inr ⟨hnone, names, rfl, hne, fun n => (hnames n).trans (habsent n)⟩⟩

/-- Of two leftovers in the sketch directory, the stale output does no harm, but the entry point
does. -/
theorem Builder.check_fails_for_two_reasons_leftovers :
    let b := Builder.ofSettings Sample.settings false
    let r := Sample.compileRequest
    let dir := r.sketchDir r.root
    let sketchLoc := ["p", "build", "blink"]
    let w := Sample.blockedWorld [(sketchLoc, .directory),
      (sketchLoc ++ ["old.cpp"], .file [] false), (sketchLoc ++ ["old.ino"], .file [] false)]
    r.compile = true ∧ ∃ u v names, b.untilCheck r w = .ok u v ∧
      b.build r w = .error (.build (.badSketch dir (.severalEntryPoints dir names))) v ∧
      "old.ino" ∈ names := by
  intro b r dir sketchLoc w
  obtain ⟨u, hu⟩ : ∃ u, (b.untilCheck r).value? w = some u :=
    Option.isSome_iff_exists.mp (by decide +kernel)
  have hreach := value?_eq_some_iff.mp hu
  have hentry : ((b.untilCheck r).after w).disk.HasEntry dir "old.ino" := by
    rw [Disk.HasEntry]
    decide +kernel
  have hother : Sketch.HasOther ((b.untilCheck r).after w).disk dir :=
    ⟨"old.ino", by decide +kernel, by decide +kernel, hentry⟩
  obtain ⟨-, -, ⟨hnone, -⟩ | ⟨e, -, hbuild, ⟨-, names, rfl, hnames⟩ | ⟨hnone, -⟩⟩⟩ :=
    Builder.check_fails_for_two_reasons (rfl : r.compile = true) hreach
  · exact absurd hother hnone
  · exact ⟨rfl, u, _, names, hreach, hbuild, (hnames _).mpr ⟨by decide +kernel, hentry⟩⟩
  · exact absurd hother hnone

end Build

end SketchBuild
