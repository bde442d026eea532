import SketchBuild.Build.Run
import SketchBuild.Proofs.Translation

/-! # Preparing a build

Before the first source is translated, a build makes the sketch directory and looks for the
translator and the sources. What it finds there depends on the disk with the new directory
(`Request.preparedDisk`). The preparation succeeds exactly when the build is `Ready`; either way it
starts no program. -/

namespace SketchBuild.Build

open SketchBuild.Action

/-! ## What a request asks for -/

/-- The output directory of a request. -/
def Request.root (r : Request) : Path :=
  r.outputDir.getD (r.projectDir.join (.ofString r.manifest.build.outputDir.toStr.shown))

/-- The output directory is given, or the manifest names it by a text. -/
def Request.Rooted (r : Request) : Prop :=
  r.outputDir.isSome = true ∨ r.manifest.build.outputDir.isText = true

/-- The disk when the sketch directory was made, as far as it could be. -/
def Request.preparedDisk (r : Request) (d : Disk) : Disk := (d.makePath (r.sketchDir r.root)).2

/-- The sources of a request: those given, else those in the source directory. -/
def Request.foundSources (r : Request) (d : Disk) : List Path :=
  match r.sources with
  | some sources => sources
  | none =>
    match (r.preparedDisk d).list (sourceDir r.projectDir) sourceSuffix with
    | .ok sources => sources
    | .error _ => []

/-- What a verbose build prints about its board can be printed. -/
def Builder.Printable (b : Builder) (r : Request) : Prop :=
  b.verbose = true → (b.boardFor r).isWord = true

/-- The board can be told, the output directory is named by a text, and the sketch directory can be
made there. -/
structure Builder.HasRoom (b : Builder) (r : Request) (d : Disk) : Prop where
  printable : b.Printable r
  rooted : r.Rooted
  made : (d.makePath (r.sketchDir r.root)).1 = none

/-- There is room for the build, the translator is installed, and there are sources, whose stems are
all different. -/
structure Builder.Ready (b : Builder) (r : Request) (w : World) : Prop extends
    b.HasRoom r w.disk where
  installed : Tool.installed (r.preparedDisk w.disk) w.env b.translator.binary = true
  found : r.foundSources w.disk ≠ []
  distinct : ((r.foundSources w.disk).map Path.stem).Nodup

/-! ## Sources -/

/-- No source is reported exactly when no two have the same stem, among them and with those seen
before. -/
theorem clash?_eq_none_iff {seen sources : List Path} :
    clash? seen sources = none ↔
      (∀ s ∈ sources, ∀ o ∈ seen, o.stem ≠ s.stem) ∧ (sources.map Path.stem).Nodup := by
  induction sources generalizing seen with
  | nil => simp [clash?]
  | cons s rest ih =>
      rw [clash?]
      cases hf : seen.find? fun other => other.stem == s.stem with
      | some other =>
          have hmem := List.mem_of_find?_eq_some hf
          have heq : other.stem = s.stem := by simpa using List.find?_some hf
          simp only [reduceCtorEq, false_iff]
          rintro ⟨hall, -⟩
          exact hall s List.mem_cons_self other hmem heq
      | none =>
          have hnone : ∀ o ∈ seen, o.stem ≠ s.stem := by simpa using hf
          rw [List.map_cons, List.nodup_cons]
          simp only [ih]
          constructor
          -- for the rest, the source is among those seen
          · rintro ⟨hall, hnd⟩
            refine ⟨List.forall_mem_cons.mpr ⟨hnone, ?_⟩, ?_, hnd⟩
            · intro x hx o ho
              exact hall x hx o (List.mem_append_left _ ho)
            · rintro hm
              obtain ⟨x, hx, hxs⟩ := List.mem_map.mp hm
              exact hall x hx s (List.mem_append_right _ List.mem_cons_self) hxs.symm
          · rintro ⟨hall, hs, hnd⟩
            refine ⟨?_, hnd⟩
            intro x hx o ho
            rcases List.mem_append.mp ho with ho | ho
            · exact hall x (List.mem_cons_of_mem _ hx) o ho
            · obtain rfl := List.mem_singleton.mp ho
              intro heq
              exact hs (List.mem_map.mpr ⟨x, hx, heq.symm⟩)

theorem acceptSources_of_nodup {sources : List Path} (place : String) (hne : sources ≠ [])
    (hnd : (sources.map Path.stem).Nodup) : acceptSources sources place = .ok sources := by
  have hclash : clash? [] sources = none := clash?_eq_none_iff.mpr ⟨by simp, hnd⟩
  rw [acceptSources, if_neg (by simpa using hne), hclash]

theorem acceptSources_of_not {sources : List Path} (place : String)
    (h : ¬ (sources ≠ [] ∧ (sources.map Path.stem).Nodup)) :
    ∃ e, acceptSources sources place = .error e := by
  rw [acceptSources]
  split
  · exact ⟨_, rfl⟩
  · next hne =>
      cases hc : clash? [] sources with
      | some pair => exact ⟨_, rfl⟩
      | none => exact absurd ⟨by simpa using hne, (clash?_eq_none_iff.mp hc).2⟩ h

/-- Sources are found as the request says, or the search stops the build. -/
theorem discoverSources_cases (r : Request) {w : World} {d : Disk}
    (hd : w.disk = r.preparedDisk d) :
    (r.foundSources d ≠ [] ∧ ((r.foundSources d).map Path.stem).Nodup ∧
      discoverSources r.projectDir r.sources w = .ok (r.foundSources d) w) ∨
    (¬ (r.foundSources d ≠ [] ∧ ((r.foundSources d).map Path.stem).Nodup) ∧
      ∃ f, discoverSources r.projectDir r.sources w = .error f w) := by
  have haccept : ∀ place,
      (r.foundSources d ≠ [] ∧ ((r.foundSources d).map Path.stem).Nodup ∧
        Action.ofExcept Fault.build (acceptSources (r.foundSources d) place) w =
          .ok (r.foundSources d) w) ∨
      (¬ (r.foundSources d ≠ [] ∧ ((r.foundSources d).map Path.stem).Nodup) ∧
        ∃ f, Action.ofExcept Fault.build (acceptSources (r.foundSources d) place) w =
          .error f w) := by
    intro place
    by_cases h : r.foundSources d ≠ [] ∧ ((r.foundSources d).map Path.stem).Nodup
    · rw [acceptSources_of_nodup place h.1 h.2]
      exact Or.inl ⟨h.1, h.2, rfl⟩
    · obtain ⟨e, he⟩ := acceptSources_of_not place h
      rw [he]
      exact Or.inr ⟨h, _, rfl⟩
  unfold discoverSources
  cases hs : r.sources with
  | some sources =>
      have hfound : r.foundSources d = sources := by rw [Request.foundSources, hs]
      rw [← hfound]
      exact haccept _
  | none =>
      dsimp only
      cases hl : w.disk.list (sourceDir r.projectDir) sourceSuffix with
      | ok sources =>
          have hfound : r.foundSources d = sources := by
            rw [Request.foundSources, hs, ← hd, hl]
          rw [bind_of_ok (ask_of_ok hl), ← hfound]
          exact haccept _
      | error e =>
          have hfound : r.foundSources d = [] := by
            rw [Request.foundSources, hs, ← hd, hl]
          rw [bind_of_error (ask_of_error hl)]
          exact Or.inr ⟨by simp [hfound], _, rfl⟩

/-! ## The other steps -/

theorem shows_step_of_printable {b : Builder} (number : Nat) {message : Text.Str}
    (h : b.verbose = true → message.isText = true) : Shows (b.step number message) := by
  unfold Builder.step
  refine (Shows.log _ _).bind ?_
  split
  · next hverbose => exact .printStr (by simp [h hverbose])
  · exact .pure

theorem shows_step (b : Builder) (number : Nat) (message : String) :
    Shows (b.step number message) :=
  shows_step_of_printable number fun _ => rfl

/-- A step whose message is torn ends a verbose build. -/
theorem step_of_torn {b : Builder} (number : Nat) {message : Text.Str} (hverbose : b.verbose = true)
    (h : message.isText = false) (w : World) :
    ∃ f w', b.step number message w = .error f w' ∧ Quiet w w' := by
  obtain ⟨w', hq, hrun⟩ := (Shows.log .debug message).bind_apply
    (fun _ => if b.verbose then printStr (s!"[{number}/6] " ++ message) else pure ()) w
  have htorn : (s!"[{number}/6] " ++ message).isText = false := by simp [h]
  obtain ⟨e, hprint⟩ := printStr_of_torn htorn
  refine ⟨.pieces e, w', ?_, hq⟩
  refine hrun.trans ?_
  rw [if_pos hverbose, hprint]
  rfl

/-- A step goes on, or ends the build before anything else is done. -/
theorem step_cases (b : Builder) (number : Nat) (message : Text.Str) (w : World) :
    (∃ w', b.step number message w = .ok () w' ∧ Quiet w w') ∨
      ∃ f w', b.step number message w = .error f w' ∧ Quiet w w' := by
  by_cases h : b.verbose = true → message.isText = true
  · exact .inl (shows_step_of_printable number h w)
  · obtain ⟨hverbose, htorn⟩ := Classical.not_imp.mp h
    exact .inr (step_of_torn number hverbose (by simpa using htorn) w)

theorem ofExcept_path_named (p : Path) :
    ofExcept Fault.pieces (Directory.named p).path = pure p := rfl

theorem outputRoot_of_rooted {r : Request} (h : r.Rooted) :
    outputRoot r = pure (.named r.root) := by
  unfold outputRoot Request.root
  unfold Request.Rooted at h
  cases hdir : r.outputDir with
  | some dir => rfl
  | none =>
      cases hset : r.manifest.build.outputDir with
      | str s =>
          cases s with
          | text name => rfl
          | torn ps hps => simp [hdir, hset, Json.isText, Text.Str.isText] at h
      | _ => simp [hdir, hset, Json.isText] at h

/-- An output directory that the manifest does not name by a text is none, or it has no path. -/
theorem outputRoot_of_not_rooted {r : Request} (h : ¬ r.Rooted) :
    (∃ f, outputRoot r = throw f) ∨
      ∃ root e, outputRoot r = pure root ∧ root.path = .error e := by
  unfold outputRoot
  unfold Request.Rooted at h
  cases hdir : r.outputDir with
  | some dir => simp [hdir] at h
  | none =>
      cases hset : r.manifest.build.outputDir with
      | str s =>
          cases s with
          | text name => simp [hset, Json.isText, Text.Str.isText] at h
          | torn ps hps => exact .inr ⟨_, _, rfl, rfl⟩
      | _ => exact .inl ⟨_, rfl⟩

theorem makeSketchDir_of_none {dir : Path} {w : World} {d : Disk}
    (h : w.disk.makePath dir = (none, d)) : makeSketchDir dir w = .ok () { w with disk := d } :=
  tryCatch_of_ok (makePath_of_none h)

theorem makeSketchDir_of_some {dir : Path} {w : World} {e : FileError} {d : Disk}
    (h : w.disk.makePath dir = (some e, d)) :
    ∃ f, makeSketchDir dir w = .error f { w with disk := d } := by
  unfold makeSketchDir
  rw [tryCatch_of_error (makePath_of_some h)]
  dsimp only
  split <;> exact ⟨_, rfl⟩

theorem requireTranslator_cases (b : Builder) (w : World) :
    (Tool.installed w.disk w.env b.translator.binary = true ∧
      b.requireTranslator w = .ok () w) ∨
    (Tool.installed w.disk w.env b.translator.binary = false ∧
      ∃ f, b.requireTranslator w = .error f w ∧ (b.translator.binary.isText = true →
        f = .build (.tool (.translatorNotInstalled b.translator.binary.toStr)))) := by
  unfold Builder.requireTranslator Translator.isInstalled
  cases hf : Tool.findSetting b.translator.binary w with
  | ok found w' =>
      obtain ⟨rfl, hsome⟩ := Tool.findSetting_eq_ok hf
      rw [bind_assoc, bind_of_ok hf, pure_bind, ← hsome]
      cases found with
      | none => exact Or.inr ⟨rfl, _, rfl, fun _ => rfl⟩
      | some p => exact Or.inl ⟨rfl, rfl⟩
  | error f w' =>
      obtain ⟨rfl, hnone, htext, -⟩ := Tool.findSetting_eq_error hf
      rw [bind_assoc, bind_of_error hf]
      refine Or.inr ⟨hnone, f, rfl, fun h => ?_⟩
      rw [htext] at h
      cases h

theorem printable_sources {b : Builder} {r : Request} (h : b.Printable r) (start : String) :
    b.verbose = true → (start ++ (b.boardFor r).toStr ++ "]").isText = true := by
  intro hverbose
  have hboard : (b.boardFor r).toStr.isText = true := h hverbose
  simp [hboard]

/-- Sources are found if the translator is, and if there are any that do not clash. -/
theorem findSources_cases {b : Builder} {r : Request} {w : World} {d : Disk}
    (hprintable : b.Printable r) (hd : w.disk = r.preparedDisk d) :
    let found := Tool.installed w.disk w.env b.translator.binary = true ∧
      r.foundSources d ≠ [] ∧ ((r.foundSources d).map Path.stem).Nodup
    (found ∧ ∃ w', b.findSources r w = .ok (r.foundSources d) w' ∧ Quiet w w') ∨
      (¬ found ∧ ∃ f, b.findSources r w = .error f w) := by
  intro found
  unfold Builder.findSources
  rcases requireTranslator_cases b w with ⟨hin, hreq⟩ | ⟨hout, f, hreq, -⟩
  · rw [bind_of_ok hreq]
    rcases discoverSources_cases r hd with ⟨hne, hnd, hfind⟩ | ⟨hnot, f, hfind⟩
    · rw [bind_of_ok hfind]
      obtain ⟨w', hq, hrun⟩ :=
        (shows_step_of_printable 3 (printable_sources hprintable _)).bind_apply _ w
      rw [hrun]
      exact Or.inl ⟨⟨hin, hne, hnd⟩, w', rfl, hq⟩
    · rw [bind_of_error hfind]
      exact Or.inr ⟨fun hfound => hnot hfound.2, f, rfl⟩
  · rw [bind_of_error hreq]
    refine Or.inr ⟨fun hfound => ?_, f, rfl⟩
    cases hout.symm.trans hfound.1

/-! ## The preparation -/

theorem shows_board {b : Builder} {r : Request} (h : b.Printable r) :
    Shows (b.step 1 ("Target board: " ++ (b.boardFor r).toStr)) := by
  refine shows_step_of_printable 1 fun hverbose => ?_
  have hboard : (b.boardFor r).toStr.isText = true := h hverbose
  simp [hboard]

theorem step_board_of_not_printable {b : Builder} {r : Request} (h : ¬ b.Printable r) (w : World) :
    ∃ f w', b.step 1 ("Target board: " ++ (b.boardFor r).toStr) w = .error f w' ∧ Quiet w w' := by
  obtain ⟨hverbose, htorn⟩ := Classical.not_imp.mp h
  have hboard : (b.boardFor r).toStr.isText = false := by simpa [Json.isWord] using htorn
  exact step_of_torn 1 hverbose (by simp [hboard]) w

/-- Once the board is told, and the output directory is known to have a path, the sketch directory
is made there. -/
theorem makeRoom_of_rooted {b : Builder} {r : Request} (hprintable : b.Printable r)
    (hrooted : r.Rooted) (w : World) :
    ∃ w₁, Quiet w w₁ ∧
      b.makeRoom r w = (makeSketchDir (r.sketchDir r.root) >>= fun _ => pure r.root) w₁ := by
  unfold Builder.makeRoom
  obtain ⟨w₁, hq₁, hrun₁⟩ := (shows_board hprintable).bind_apply _ w
  rw [hrun₁, outputRoot_of_rooted hrooted, pure_bind]
  obtain ⟨w₂, hq₂, hrun₂⟩ := (shows_step b 2 _).bind_apply _ w₁
  exact ⟨w₂, hq₁.trans hq₂, hrun₂⟩

theorem makeRoom_of_hasRoom {b : Builder} {r : Request} {w : World} (h : b.HasRoom r w.disk) :
    ∃ w₁, b.makeRoom r w = .ok r.root w₁ ∧ Trail w w₁ [] ∧ w₁.disk = r.preparedDisk w.disk := by
  obtain ⟨w₁, hq, hrun⟩ := makeRoom_of_rooted h.printable h.rooted w
  have hmake : w₁.disk.makePath (r.sketchDir r.root) = (none, r.preparedDisk w.disk) := by
    rw [hq.disk]
    exact Prod.ext h.made rfl
  rw [hrun, bind_of_ok (makeSketchDir_of_none hmake)]
  exact ⟨_, rfl, hq.trail.silent_trans (.withDisk w₁ _), rfl⟩

/-- Without room the preparation stops. -/
theorem makeRoom_of_not_hasRoom {b : Builder} {r : Request} {w : World}
    (h : ¬ b.HasRoom r w.disk) :
    ∃ f w', b.makeRoom r w = .error f w' ∧ Trail w w' [] := by
  by_cases hprintable : b.Printable r
  case neg =>
    obtain ⟨f, w₁, hstep, hq⟩ := step_board_of_not_printable hprintable w
    exact ⟨f, w₁, bind_of_error hstep, hq.trail⟩
  by_cases hrooted : r.Rooted
  · obtain ⟨w₁, hq, hrun⟩ := makeRoom_of_rooted hprintable hrooted w
    rcases hm : w₁.disk.makePath (r.sketchDir r.root) with ⟨failure, d⟩
    cases failure with
    | none =>
        refine absurd ⟨hprintable, hrooted, ?_⟩ h
        rw [← hq.disk, hm]
    | some e =>
        obtain ⟨f, hmake⟩ := makeSketchDir_of_some hm
        exact ⟨f, _, hrun.trans (bind_of_error hmake), hq.trail.silent_trans (.withDisk w₁ d)⟩
  · unfold Builder.makeRoom
    obtain ⟨w₁, hq₁, hrun₁⟩ := (shows_board hprintable).bind_apply _ w
    rw [hrun₁]
    rcases outputRoot_of_not_rooted hrooted with ⟨f, hroot⟩ | ⟨root, e, hroot, hpath⟩
    · rw [hroot]
      exact ⟨f, w₁, rfl, hq₁.trail⟩
    rw [hroot, pure_bind, hpath]
    -- the step may be refused already, and if it is not, the path is
    rcases step_cases b 2 ("Sketch directory: " ++ (root.child r.sketchName).spelling) w₁ with
      ⟨w₂, hstep, hq₂⟩ | ⟨f, w₂, hstep, hq₂⟩
    · rw [bind_of_ok hstep]
      exact ⟨.pieces e, w₂, rfl, (hq₁.trans hq₂).trail⟩
    · exact ⟨f, w₂, bind_of_error hstep, (hq₁.trans hq₂).trail⟩

/-- **Preparing a build** succeeds exactly if the build is ready, and starts no program. -/
theorem prepare_cases (b : Builder) (r : Request) (w : World) :
    (∃ w', b.Ready r w ∧ b.prepare r w = .ok (r.root, r.foundSources w.disk) w' ∧
      Trail w w' [] ∧ w'.disk = r.preparedDisk w.disk) ∨
    (¬ b.Ready r w ∧ ∃ f w', b.prepare r w = .error f w' ∧ Trail w w' []) := by
  by_cases h : b.HasRoom r w.disk
  · obtain ⟨w₁, hroom, ht₁, hd₁⟩ := makeRoom_of_hasRoom h
    rw [Builder.prepare, bind_of_ok hroom]
    rcases findSources_cases h.printable hd₁ with
      ⟨⟨hin, hne, hnd⟩, w₂, hfind, hq₂⟩ | ⟨hnot, f, hfind⟩
    · rw [bind_of_ok hfind]
      rw [hd₁, ht₁.env] at hin
      exact Or.inl ⟨w₂, ⟨h, hin, hne, hnd⟩, rfl, ht₁.silent_trans hq₂.trail, hq₂.disk.trans hd₁⟩
    · rw [bind_of_error hfind]
      refine Or.inr ⟨fun hready => hnot ⟨?_, hready.found, hready.distinct⟩, f, w₁, rfl, ht₁⟩
      rw [hd₁, ht₁.env]
      exact hready.installed
  · obtain ⟨f, w₁, hroom, ht₁⟩ := makeRoom_of_not_hasRoom h
    exact Or.inr ⟨fun hready => h hready.toHasRoom, f, w₁, bind_of_error hroom, ht₁⟩

end SketchBuild.Build
