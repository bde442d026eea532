import Mathlib.Logic.Relation
import SketchBuild.Proofs.Build.Calls

/-! # What a build changes by itself

A build changes the disk in three ways only: it makes the directories that it works in, it removes
stale outputs, and it writes the entry point (`Workspace.Step`). All else is done by the programs
that it starts. So between two programs, and before the first and after the last, the disk is
changed by such steps alone (`Builder.own_changes_framed`), however the build ends. -/

namespace SketchBuild

open SketchBuild.Action

open Relation (ReflTransGen)

/-! ## Steps -/

namespace Build

/-- The directories that a build works in, and the names of its outputs. -/
structure Workspace where
  sketchDir : Path
  cacheDir : Path
  outputs : List String

/-- The workspace of a request. -/
def Request.workspace (r : Request) (d : Disk) : Workspace where
  sketchDir := r.sketchDir r.root
  cacheDir := r.root.child cacheName
  outputs := (r.foundSources d).map fun s => s.stem ++ Sketch.outputSuffix

namespace Workspace

variable (ws : Workspace)

/-- The name of the entry point. -/
def entryName : String := ws.sketchDir.name ++ Sketch.entrySuffix

/-- The name of an output that no source has any more. -/
def IsStale (n : String) : Prop := Text.endsWith n Sketch.outputSuffix = true ∧ n ∉ ws.outputs

/-- The location of an entry of the sketch directory. -/
def below (d : Disk) (n : String) : Location := (d.target ws.sketchDir).loc ++ [n]

/-- The location is that of one of the two directories, or of one above it. -/
def OnTheWay (d : Disk) (l : Location) : Prop :=
  ∃ p ∈ [ws.sketchDir, ws.cacheDir], ⟨l, 0⟩ ∈ (d.origin p).visits p.parts

/-- One change that a build makes by itself. -/
inductive Step (d : Disk) : Disk → Prop
  /-- A missing directory is made. -/
  | make {l : Location} (hway : ws.OnTheWay d l) (hmissing : d.tree.get? l = none)
    (hplace : d.tree.admits l .directory = true) : Step d (d.insert l .directory)
  /-- A stale output is removed. -/
  | remove {n : String} {c : List UInt8} {x : Bool} (hstale : ws.IsStale n)
    (hfile : d.tree.get? (ws.below d n) = some (.file c x)) :
    Step d (d.eraseFile (ws.below d n))
  /-- The entry point is written. -/
  | write {x : Bool} (hfree : d.tree.get? (ws.below d ws.entryName) ≠ some .directory) :
    Step d (d.insert (ws.below d ws.entryName) (.file (Text.Utf8.encode Sketch.stub) x))

/-- Steps one after the other. -/
def Steps : Disk → Disk → Prop := ReflTransGen ws.Step

variable {ws}

/-! ## What steps leave -/

/-- The location is not that of the entry point or of a stale output. -/
def Foreign (ws : Workspace) (d : Disk) (l : Location) : Prop :=
  ∀ n, l = ws.below d n → n ≠ ws.entryName ∧ ¬ ws.IsStale n

/-- What stands where neither the entry point nor a stale output has its place is there afterwards,
and only directories are new. -/
structure Frame (ws : Workspace) (d d' : Disk) : Prop where
  cwd : d'.cwd = d.cwd
  get : ∀ l, ws.Foreign d l → d'.tree.get? l = d.tree.get? l ∨
    d.tree.get? l = none ∧ d'.tree.get? l = some .directory ∧ ws.OnTheWay d l
  directory : ∀ l, d.tree.get? l = some .directory → d'.tree.get? l = some .directory

theorem below_of_cwd {d d' : Disk} (h : d'.cwd = d.cwd) (n : String) :
    ws.below d' n = ws.below d n := by
  rw [below, below, Disk.target_of_cwd h]

theorem onTheWay_of_cwd {d d' : Disk} (h : d'.cwd = d.cwd) {l : Location} :
    ws.OnTheWay d' l ↔ ws.OnTheWay d l := by
  simp only [OnTheWay, Disk.origin_of_cwd h]

theorem foreign_of_cwd {d d' : Disk} (h : d'.cwd = d.cwd) {l : Location} :
    ws.Foreign d' l ↔ ws.Foreign d l := by
  simp only [Foreign, below_of_cwd h]

/-- A path with a proper name that is neither the entry point's nor that of a stale output. -/
def Spares (ws : Workspace) (p : Path) : Prop :=
  p.name ∉ ["", ".", ".."] ∧ p.name ≠ ws.entryName ∧ ¬ ws.IsStale p.name

/-- What has such a name is foreign, wherever it stands. -/
theorem Spares.foreign {p : Path} (h : ws.Spares p) (d : Disk) :
    ws.Foreign d (d.target p).loc := by
  obtain ⟨hname, hentry, hstale⟩ := h
  simp only [List.mem_cons, List.not_mem_nil, or_false, not_or] at hname
  obtain ⟨hempty, hdot, hdots⟩ := hname
  have hchild : p = p.parent.child p.name := by
    rcases List.eq_nil_or_concat p.parts with hnil | ⟨up, n, hparts⟩
    · exact absurd (by rw [Path.name, hnil]; rfl) hempty
    · rw [List.concat_eq_append] at hparts
      obtain ⟨anchor, parts⟩ := p
      obtain rfl : parts = up ++ [n] := hparts
      simp [Path.child, Path.parent, Path.name]
  intro n heq
  rw [hchild, Disk.target_child hdot hdots, below] at heq
  obtain rfl : p.name = n := List.singleton_inj.mp (List.append_inj' heq rfl).2
  exact ⟨hentry, hstale⟩

theorem proper_of_endsWith {s ending : String} (h : Text.endsWith s ending = true)
    (hlen : 2 < ending.length) : s ∉ ["", ".", ".."] := by
  have hne : ∀ t : String, t.length ≤ 2 → s ≠ t := fun t ht =>
    Text.ne_of_endsWith h (Nat.lt_of_le_of_lt ht hlen)
  simp [hne "" (by decide), hne "." (by decide), hne ".." (by decide)]

/-- An ending that neither ends the two others nor ends in them tells the names apart. -/
theorem spares_of_endsWith {p : Path} {ending : String} (h : Text.endsWith p.name ending = true)
    (hlen : 2 < ending.length)
    (hentry : ¬ (ending.toList <:+ Sketch.entrySuffix.toList ∨
      Sketch.entrySuffix.toList <:+ ending.toList))
    (houtput : ¬ (ending.toList <:+ Sketch.outputSuffix.toList ∨
      Sketch.outputSuffix.toList <:+ ending.toList)) : ws.Spares p := by
  have hother : ∀ {suffix : String}, Text.endsWith p.name suffix = true →
      ending.toList <:+ suffix.toList ∨ suffix.toList <:+ ending.toList := fun hs =>
    List.suffix_or_suffix_of_suffix (List.isSuffixOf_iff_suffix.mp h)
      (List.isSuffixOf_iff_suffix.mp hs)
  refine ⟨proper_of_endsWith h hlen, fun heq => ?_, fun hstale => houtput (hother hstale.1)⟩
  exact hentry (hother (heq ▸ Sketch.endsWith_entryName ws.sketchDir))

namespace Frame

variable {d d' d'' : Disk}

theorem refl (d : Disk) : ws.Frame d d := ⟨rfl, fun _ _ => Or.inl rfl, fun _ h => h⟩

theorem trans (h : ws.Frame d d') (h' : ws.Frame d' d'') : ws.Frame d d'' where
  cwd := h'.cwd.trans h.cwd
  get l hl := by
    rcases h.get l hl with hsame | ⟨hnone, hdir, hway⟩
    · rcases h'.get l ((foreign_of_cwd h.cwd).mpr hl) with hsame' | ⟨hnone', hdir', hway'⟩
      · exact Or.inl (hsame'.trans hsame)
      · exact Or.inr ⟨hsame ▸ hnone', hdir', (onTheWay_of_cwd h.cwd).mp hway'⟩
    · exact Or.inr ⟨hnone, h'.directory l hdir, hway⟩
  directory l hl := h'.directory l (h.directory l hl)

/-- **One step** leaves what is foreign to it. -/
theorem of_step (h : ws.Step d d') : ws.Frame d d' := by
  cases h with
  | @make l hway hmissing hplace =>
      have hget : ∀ k, k ≠ l → (d.tree.insert l .directory).get? k = d.tree.get? k :=
        fun k hk => Tree.get?_insert_of_ne d.tree _ hk
      have hnew : (d.tree.insert l .directory).get? l = some .directory := by
        rw [Tree.get?_insert hplace, if_pos rfl]
      refine ⟨rfl, fun k _ => ?_, fun k hk => ?_⟩
      · by_cases heq : k = l
        · subst heq
          exact Or.inr ⟨hmissing, hnew, hway⟩
        · exact Or.inl (hget k heq)
      · by_cases heq : k = l
        · subst heq
          exact hnew
        · exact (hget k heq).trans hk
  | @remove n c x hstale hfile =>
      have hconf := Tree.Confined.eraseFile (P := (· = n)) rfl hfile
      refine ⟨rfl, fun k hk => Or.inl (hconf.get k ?_), fun k hk => (hconf.directory k).mpr hk⟩
      rintro m rfl heq
      exact (hk m heq).2 hstale
  | @write x hfree =>
      have hconf := Tree.Confined.insert (P := (· = ws.entryName))
        (c := Text.Utf8.encode Sketch.stub) (x := x) rfl hfree
      refine ⟨rfl, fun k hk => Or.inl (hconf.get k ?_), fun k hk => (hconf.directory k).mpr hk⟩
      rintro m rfl heq
      exact (hk _ heq).1 rfl

/-- **Steps one after the other** leave what is foreign to them. -/
theorem of_steps (h : ws.Steps d d') : ws.Frame d d' := by
  induction h with
  | refl => exact .refl d
  | tail _ hstep ih => exact ih.trans (.of_step hstep)

/-- A file that can be read at a foreign place can be read there afterwards. -/
theorem content?_eq_some (h : ws.Frame d d') {p : Path} {c : List UInt8}
    (hp : ws.Foreign d (d.target p).loc) (hc : d.content? p = some c) : d'.content? p = some c := by
  obtain ⟨x, hstat⟩ := Disk.content?_eq_some_iff.mp hc
  obtain ⟨hs, hpass, hocc⟩ := Disk.stat_eq_ok_iff.mp hstat
  have h0 : (d.target p).lost = 0 :=
    Place.lost_eq_zero_of_occupant?_ne (t := d.tree) (by simp [hocc])
  rw [Place.occupant?, if_pos h0] at hocc
  have hget : d'.tree.get? (d.target p).loc = some (.file c x) := by
    rcases h.get _ hp with hsame | ⟨hnone, -, -⟩
    · rw [hsame, hocc]
    · rw [hnone] at hocc
      cases hocc
  refine Disk.content?_eq_some_iff.mpr ⟨x, Disk.stat_eq_ok_iff.mpr ⟨hs, ?_, ?_⟩⟩
  · rw [Disk.origin_of_cwd h.cwd]
    refine hpass.congr fun q _ hq => ?_
    rw [Place.occupant?] at hq ⊢
    split at hq
    · next hq0 =>
        rw [if_pos hq0]
        exact h.directory _ hq
    · next hq0 => rw [if_neg hq0]
  · rw [Disk.target_of_cwd h.cwd, Place.occupant?, if_pos h0, hget]

end Frame

/-! ## Making directories -/

/-- The places on the way to one path are on the way to another. -/
def Above (q p : Path) : Prop :=
  ∀ d : Disk, (d.origin q).visits q.parts ⊆ (d.origin p).visits p.parts

theorem Above.parent {q p : Path} (h : Above q p) : Above q.parent p := fun d =>
  List.Subset.trans (Place.visits_dropLast_subset (d.origin q) q.parts) (h d)

section Making

variable {p q : Path} {d d' : Disk} (hp : p ∈ [ws.sketchDir, ws.cacheDir]) (hq : Above q p)
include hp hq

theorem steps_ensureDirectory (h : d.ensureDirectory q = .ok d') : ws.Steps d d' := by
  rw [Disk.ensureDirectory] at h
  split at h
  · next d₁ hm =>
      cases h
      rw [Disk.makeDirectory] at hm
      cases hl : d.locate q with
      | error e =>
          rw [hl] at hm
          cases hm
      | ok place =>
          obtain ⟨hspell, hpass, rfl⟩ := Disk.locate_eq_ok_iff.mp hl
          rw [hl] at hm
          dsimp only at hm
          split at hm
          · cases hm
          · next hnone =>
              cases hm
              have hfree : (d.target q).occupant? d.tree ≠ some .directory := by simp [hnone]
              have h0 := Place.lost_eq_zero_of_occupant?_ne hfree
              rw [Place.occupant?, if_pos h0] at hnone
              refine .single (.make ⟨p, hp, hq d ?_⟩ hnone
                (Disk.admits_target hspell hpass hfree .directory))
              rw [← h0]
              exact Place.along_mem_visits _ _
  · cases h
  · cases h
  · split at h
    · cases h
    · cases h
      exact .refl
    · cases h

/-- **Making directories** takes steps only, also if it fails in between. -/
theorem steps_ensureDirectories (depth : Nat) :
    ws.Steps d (Disk.ensureDirectories depth q d).2 := by
  induction depth generalizing q d with
  | zero =>
      rw [Disk.ensureDirectories]
      split
      · next h => exact steps_ensureDirectory hp hq h
      · exact .refl
  | succ depth ih =>
      have hparent := ih (d := d) hq.parent
      rw [Disk.ensureDirectories]
      split
      · next h => exact steps_ensureDirectory hp hq h
      · split
        · -- the directory above was missing
          split
          · next h =>
              rw [h] at hparent
              exact hparent
          · next h =>
              rw [h] at hparent
              split
              · next h' => exact hparent.trans (steps_ensureDirectory hp hq h')
              · exact hparent
        · exact .refl

end Making

theorem steps_makePath {p : Path} (hp : p ∈ [ws.sketchDir, ws.cacheDir]) (d : Disk) :
    ws.Steps d (d.makePath p).2 :=
  steps_ensureDirectories hp (fun _ => List.Subset.refl _) _

/-! ## Between programs -/

/-- The disk `d'` came from `d` by steps and by the programs `ss`: each of these found what steps
had made of the disk that was left by the one before it. -/
def Explains (ws : Workspace) (tools : Tool.Tools) :
    List Tool.Start → Disk → List Tool.Start → Disk → Prop
  | _, d, [], d' => ws.Steps d d'
  | past, d, s :: ss, d' => ws.Steps d s.disk ∧
      Explains ws tools (past ++ [s]) (s.disk.withTree (s.response tools past).tree) ss d'

theorem Explains.trans {tools : Tool.Tools} {past ss ss' : List Tool.Start} {d d' d'' : Disk}
    (h : ws.Explains tools past d ss d') (h' : ws.Explains tools (past ++ ss) d' ss' d'') :
    ws.Explains tools past d (ss ++ ss') d'' := by
  induction ss generalizing past d with
  | nil =>
      rw [List.append_nil] at h'
      cases ss' with
      | nil => exact ReflTransGen.trans h h'
      | cons s ss' => exact ⟨ReflTransGen.trans h h'.1, h'.2⟩
  | cons s ss ih => exact ⟨h.1, ih h.2 (by rwa [List.append_assoc, List.singleton_append])⟩

/-- All that happened to the disk is explained by the programs that were started. -/
def Covers (ws : Workspace) (w w' : World) : Prop :=
  ∃ ss, Trail w w' ss ∧ ws.Explains w.tools w.past w.disk ss w'.disk

namespace Covers

theorem of_steps {w w' : World} (ht : Trail w w' []) (h : ws.Steps w.disk w'.disk) :
    ws.Covers w w' :=
  ⟨[], ht, h⟩

theorem of_quiet {w w' : World} (h : Quiet w w') : ws.Covers w w' :=
  of_steps h.trail (h.disk ▸ .refl)

theorem refl (w : World) : ws.Covers w w := of_quiet (.refl w)

theorem of_ran {w w' : World} {i : Tool.Invocation} (h : Ran w i w') : ws.Covers w w' :=
  ⟨_, h.trail, .refl, by rw [h.disk]; exact .refl⟩

theorem trans {w w' w'' : World} (h : ws.Covers w w') (h' : ws.Covers w' w'') :
    ws.Covers w w'' := by
  obtain ⟨ss, ht, hexp⟩ := h
  obtain ⟨ss', ht', hexp'⟩ := h'
  rw [ht.tools, ht.past] at hexp'
  exact ⟨ss ++ ss', ht.trans ht', hexp.trans hexp'⟩

end Covers

/-! ## The parts of a build -/

section Parts

variable {α : Type}

theorem covers_pure (a : α) : Action.Leaves ws.Covers (pure a : Action α) := Covers.refl

theorem covers_throw (f : Fault) : Action.Leaves ws.Covers (throw f : Action α) := Covers.refl

theorem covers_ofExcept {ε : Type} (toFault : ε → Fault) (e : Except ε α) :
    Action.Leaves ws.Covers (ofExcept toFault e) := by
  cases e with
  | ok a => exact covers_pure a
  | error e => exact covers_throw _

theorem covers_ask (question : Disk → Except FileError α) :
    Action.Leaves ws.Covers (ask question) :=
  .of_eq Covers.refl (after_ask question)

theorem covers_shows {x : Action Unit} (h : Shows x) : Action.Leaves ws.Covers x := by
  intro w
  obtain ⟨w', hx, hq⟩ := h w
  rw [after_of_ok hx]
  exact .of_quiet hq

theorem covers_makePath {p : Path} (hp : p ∈ [ws.sketchDir, ws.cacheDir]) :
    Action.Leaves ws.Covers (changePartly (·.makePath p)) := by
  intro w
  have hsteps := steps_makePath hp w.disk
  rcases hmake : w.disk.makePath p with ⟨failure, d⟩
  rw [hmake] at hsteps
  cases failure with
  | none =>
      rw [after_of_ok (makePath_of_none hmake)]
      exact .of_steps (.withDisk w d) hsteps
  | some e =>
      rw [after_of_error (makePath_of_some hmake)]
      exact .of_steps (.withDisk w d) hsteps

theorem covers_change {operation : Disk → Except FileError Disk}
    (h : ∀ d d', operation d = .ok d' → ws.Step d d') :
    Action.Leaves ws.Covers (change operation) := by
  intro w
  cases hd : operation w.disk with
  | ok d =>
      rw [after_of_ok (change_of_ok hd)]
      exact .of_steps (.withDisk w d) (.single (h _ _ hd))
  | error e =>
      rw [after_of_error (change_of_error hd)]
      exact .refl w

end Parts

theorem isStale_ne_dot {n : String} (h : ws.IsStale n) : n ≠ "." ∧ n ≠ ".." :=
  ⟨Text.ne_of_endsWith h.1 (by decide), Text.ne_of_endsWith h.1 (by decide)⟩

theorem step_removeFile {n : String} (h : ws.IsStale n) {d d' : Disk}
    (hd : d.removeFile (ws.sketchDir.child n) = .ok d') : ws.Step d d' := by
  obtain ⟨h1, h2⟩ := isStale_ne_dot h
  obtain ⟨-, -, ⟨c, x, hfile⟩, rfl⟩ := Disk.removeFile_eq_ok_iff.mp hd
  rw [Disk.target_child h1 h2] at hfile ⊢
  exact .remove h hfile

/-- Only stale outputs are removed from the sketch directory. -/
theorem covers_clearStale {keep : List Path} (hkeep : keep.map Path.name = ws.outputs) :
    Action.Leaves ws.Covers (clearStale ws.sketchDir keep) := by
  have hremove : ∀ ps : List Path, (∀ p ∈ ps, ∃ n, ws.IsStale n ∧ p = ws.sketchDir.child n) →
      Action.Leaves ws.Covers (Sketch.removeAll ps) := by
    intro ps hps
    induction ps with
    | nil => exact covers_pure ()
    | cons p ps ih =>
        obtain ⟨⟨n, hn, rfl⟩, hrest⟩ := List.forall_mem_cons.mp hps
        exact .bind .trans (covers_change fun _ _ => step_removeFile hn) fun _ => ih hrest
  have hstale : Action.Leaves ws.Covers (Sketch.removeStale ws.sketchDir keep) := by
    intro w
    rw [Sketch.removeStale]
    cases hl : w.disk.list ws.sketchDir Sketch.outputSuffix with
    | error e =>
        have hask : Sketch.outputs ws.sketchDir w = .error (.file e) w := ask_of_error hl
        rw [after_bind_of_error hask]
        exact .refl w
    | ok ps =>
        have hask : Sketch.outputs ws.sketchDir w = .ok ps w := ask_of_ok hl
        rw [after_bind_of_ok hask]
        refine Leaves.bind .trans (hremove _ fun p hp => ?_) (fun _ => covers_pure _) w
        obtain ⟨hmem, hnot⟩ := List.mem_filter.mp hp
        obtain ⟨-, -, n, hends, -, rfl⟩ := (Disk.mem_list_iff hl).mp hmem
        rw [Path.name_child, hkeep] at hnot
        exact ⟨n, ⟨hends, by simpa using hnot⟩, rfl⟩
  exact .bind .trans hstale fun _ => covers_shows (Shows.forM (fun _ => .log _ _) _)

theorem covers_writeEntryPoint :
    Action.Leaves ws.Covers (Sketch.writeEntryPoint ws.sketchDir) := by
  refine .bind .trans (covers_change fun d d' hd => ?_) fun _ => covers_pure _
  obtain ⟨-, -, hfree, rfl⟩ := Disk.writeFile_eq_ok_iff.mp hd
  have htarget : d.target (Sketch.entryPoint ws.sketchDir) = ⟨ws.below d ws.entryName, 0⟩ :=
    Disk.target_child (Sketch.entryName_ne_dot _) (Sketch.entryName_ne_dotDot _)
  rw [htarget] at hfree ⊢
  exact .write hfree

theorem covers_run {command : List Text.Str} (hcommand : command ≠ []) (cwd : Option Path)
    (merge : Bool) : Action.Leaves ws.Covers (Tool.run command cwd merge) := by
  intro w
  cases hwords : Text.Str.words command with
  | error e =>
      obtain ⟨w', hq, hrun⟩ := Tool.run_of_torn hwords cwd merge w
      rw [after_of_error hrun]
      exact .of_quiet hq
  | ok argv =>
      obtain ⟨w', hran, hrun⟩ :=
        Tool.run_apply cwd merge w hwords (Text.Str.ne_nil_of_words hwords hcommand)
      rw [after_congr hrun]
      exact (Covers.of_ran hran).trans (covers_ofExcept _ _ w')

end Workspace

section Builds

open Workspace

variable {ws : Workspace} (b : Builder) (r : Request)

/-- Checking a sketch only reads. -/
theorem covers_checkSketch (dir : Path) (outputs : List Path) :
    Action.Leaves ws.Covers (checkSketch dir outputs) := by
  have hsole : Action.Leaves ws.Covers (Sketch.soleEntryPoint dir) := by
    refine .bind .trans (covers_ask _) fun entries => ?_
    split
    · exact covers_throw _
    · split
      · exact covers_pure _
      · exact covers_throw _
    · exact covers_throw _
  have hrequire : Action.Leaves ws.Covers (Sketch.requireOutputs dir outputs) := by
    refine .bind .trans (covers_ask _) fun present => ?_
    dsimp only
    split
    · exact covers_throw _
    · exact covers_pure _
  refine .tryCatch .trans (.bind .trans (covers_ask _) fun there => ?_) fun f => ?_
  · cases there with
    | false => exact covers_throw _
    | true => exact .bind .trans hsole fun _ => .bind .trans hrequire fun _ => covers_pure _
  · split <;> exact covers_throw _

/-- The compiler works in its own directory. -/
theorem covers_compileSketch (c : Compiler) (sketch : Sketch.Checked) (fqbn : String)
    (result : Result) :
    Action.Leaves ws.Covers (compileSketch c sketch fqbn ws.cacheDir result) := by
  have hrun : Action.Leaves ws.Covers (c.run sketch fqbn ws.cacheDir) := by
    refine .tryCatch .trans (covers_run (by simp [Compiler.command]) _ _) fun f => ?_
    split <;> exact covers_throw _
  refine .tryCatch .trans ?_ fun f => ?_
  · refine .bind .trans (covers_makePath (.tail _ (.head _))) fun _ => ?_
    refine .bind .trans (covers_ask _) fun outputs => ?_
    refine .bind .trans (covers_shows (.log _ _)) fun _ => ?_
    refine .bind .trans hrun fun o => ?_
    have hfind : Action.Leaves ws.Covers (Compiler.findFirmware ws.cacheDir) :=
      .of_eq Covers.refl (Compiler.after_findFirmware _)
    dsimp only
    split
    · exact .bind .trans (covers_ofExcept _ _) fun _ => covers_throw _
    · split
      · exact .bind .trans (covers_shows (.print _)) fun _ => hfind
      · exact hfind
  · split <;> exact covers_throw _

theorem covers_translateAll (t : Translator) (dir : Path) (board : Json) (sourceMap : Bool)
    (sources : List Path) :
    Action.Leaves ws.Covers (translateAll t dir board sourceMap sources) := by
  induction sources with
  | nil => exact covers_pure _
  | cons source rest ih =>
      have htranslate : Action.Leaves ws.Covers
          (t.translate source (Sketch.outputOf dir source) board sourceMap) := by
        intro w
        by_cases htext : t.binary.isText = true ∧ board.isText = true
        · obtain ⟨w', hran, hrun⟩ := Translator.translate_apply htext.1 htext.2 source
            (Sketch.outputOf dir source) sourceMap w
          rw [Action.after, hrun]
          cases t.report source (Sketch.outputOf dir source) _ <;> exact .of_ran hran
        · obtain ⟨f, w', herr, hq⟩ := Translator.translate_of_not_isText htext source
            (Sketch.outputOf dir source) sourceMap w
          rw [after_of_error herr]
          exact .of_quiet hq
      refine .bind .trans htranslate fun o => ?_
      refine .bind .trans (covers_shows (.log _ _)) fun _ => ?_
      refine .bind .trans (covers_shows (.print _)) fun _ => ?_
      exact .bind .trans ih fun _ => covers_pure _

theorem covers_step (number : Nat) (message : Text.Str) :
    Action.Leaves ws.Covers (b.step number message) := by
  intro w
  rcases step_cases b number message w with ⟨w', hstep, hq⟩ | ⟨f, w', hstep, hq⟩
  · rw [after_of_ok hstep]
    exact .of_quiet hq
  · rw [after_of_error hstep]
    exact .of_quiet hq

theorem covers_findSources : Action.Leaves ws.Covers (b.findSources r) := by
  have hrequire : Action.Leaves ws.Covers b.requireTranslator := by
    intro w
    rcases requireTranslator_cases b w with ⟨-, hok⟩ | ⟨-, f, herr, -⟩
    · rw [after_of_ok hok]
      exact .refl w
    · rw [after_of_error herr]
      exact .refl w
  have hdiscover : Action.Leaves ws.Covers (discoverSources r.projectDir r.sources) := by
    unfold discoverSources
    split
    · exact covers_ofExcept _ _
    · exact .bind .trans (covers_ask _) fun _ => covers_ofExcept _ _
  refine .bind .trans hrequire fun _ => .bind .trans hdiscover fun sources => ?_
  exact .bind .trans (covers_step b 3 _) fun _ => covers_pure _

theorem covers_makeRoom (hdir : ws.sketchDir = r.sketchDir r.root) :
    Action.Leaves ws.Covers (b.makeRoom r) := by
  have hmake : Action.Leaves ws.Covers (makeSketchDir (r.sketchDir r.root)) := by
    refine .tryCatch .trans (covers_makePath (hdir ▸ .head _)) fun f => ?_
    split
    · split <;> exact covers_throw _
    · exact covers_throw _
  refine .bind .trans (covers_step b 1 _) fun _ => ?_
  by_cases hrooted : r.Rooted
  · rw [outputRoot_of_rooted hrooted, pure_bind]
    refine .bind .trans (covers_step b 2 _) fun _ => ?_
    rw [ofExcept_path_named, pure_bind]
    exact .bind .trans hmake fun _ => covers_pure _
  · rcases outputRoot_of_not_rooted hrooted with ⟨f, hroot⟩ | ⟨root, e, hroot, hpath⟩
    · rw [hroot]
      exact Covers.refl
    · rw [hroot, pure_bind, hpath]
      exact .bind .trans (covers_step b 2 _) fun _ => Covers.refl

theorem covers_prepare (hdir : ws.sketchDir = r.sketchDir r.root) :
    Action.Leaves ws.Covers (b.prepare r) := by
  refine .bind .trans (covers_makeRoom b r hdir) fun root => ?_
  exact .bind .trans (covers_findSources b r) fun _ => covers_pure _

theorem covers_compile {root : Path} {result : Result}
    (hcache : ws.cacheDir = root.child cacheName) :
    Action.Leaves ws.Covers (b.compile root result) := by
  rw [Builder.compile]
  split
  · refine .bind .trans (covers_step b 5 _) fun _ => ?_
    refine .bind .trans (covers_checkSketch _ _) fun sketch => ?_
    refine .bind .trans (covers_step b 6 _) fun _ => ?_
    refine .bind .trans (hcache ▸ covers_compileSketch _ _ _ _) fun firmware => ?_
    split
    · exact .bind .trans (covers_shows (.log _ _)) fun _ => covers_pure _
    · exact covers_pure _
  · exact covers_throw _

/-- What follows the last source stays in the workspace that keeps its outputs. -/
theorem covers_finish {root : Path} {result : Result} (hdir : ws.sketchDir = result.sketchDir)
    (hcache : ws.cacheDir = root.child cacheName)
    (houtputs : result.outputs.map Path.name = ws.outputs) :
    Action.Leaves ws.Covers (b.finish r root result) := by
  have hassemble : Action.Leaves ws.Covers (b.assemble result) := by
    refine .bind .trans (hdir ▸ covers_clearStale houtputs) fun _ => ?_
    refine .bind .trans (hdir ▸ covers_writeEntryPoint) fun _ => ?_
    exact covers_step b 4 _
  refine .bind .trans hassemble fun _ => ?_
  split
  · exact covers_compile b hcache
  · exact covers_pure _

/-- A build stays in its workspace, however it ends. -/
theorem covers_build (w : World) : (r.workspace w.disk).Covers w ((b.build r).after w) := by
  have hprepare : (r.workspace w.disk).Covers w ((b.prepare r).after w) :=
    covers_prepare b r rfl w
  rcases prepare_cases b r w with ⟨w₁, -, hprep, -, -⟩ | ⟨-, f, w₁, hprep, -⟩
  · rw [after_of_ok hprep] at hprepare
    rw [after_congr (build_of_prepare hprep)]
    have htranslate : (r.workspace w.disk).Covers w₁ ((translateAll b.translator
        (r.sketchDir r.root) (b.boardFor r) r.wantsSourceMap (r.foundSources w.disk)).after w₁) :=
      covers_translateAll _ _ _ _ _ w₁
    obtain ⟨runs, w₂, -, -, ⟨done, hok, hout⟩ | ⟨f, herr⟩⟩ := translateAll_runs b.translator
      (b.boardFor r) (r.sketchDir r.root) r.wantsSourceMap (r.foundSources w.disk) w₁
    · rw [after_of_ok hok] at htranslate
      rw [after_bind_of_ok hok]
      refine hprepare.trans (htranslate.trans (covers_finish b r rfl rfl ?_ w₂))
      show (done.map (·.output)).map Path.name = _
      rw [hout, List.map_map]
      exact List.map_congr_left fun s _ => Path.name_child _ _
    · rw [after_of_error herr] at htranslate
      rw [after_bind_of_error herr]
      exact hprepare.trans htranslate
  · rw [after_of_error hprep] at hprepare
    have herr : b.build r w = .error f w₁ := bind_of_error hprep
    rw [after_of_error herr]
    exact hprepare

/-- **What a build changes by itself.** However a build ends, each program that it started found the
disk that the one before had left, changed by steps only; so does the end of the build. Steps leave
alone what is foreign to the workspace, so in particular every source, every manifest, every output
of a source of this build and every entry of the sketch directory with another ending: what could be
read there can be read as before. -/
theorem Builder.own_changes_framed (w : World) :
    let ws := r.workspace w.disk
    let w' := (b.build r).after w
    (∃ ss, w'.past = w.past ++ ss ∧ ws.Explains w.tools w.past w.disk ss w'.disk) ∧
    (∀ d d', ws.Steps d d' → ws.Frame d d' ∧ ∀ p c, d.content? p = some c →
      (ws.Foreign d (d.target p).loc ∨ ws.Spares p) → d'.content? p = some c) ∧
    ∀ p : Path, Text.endsWith p.name sourceSuffix = true ∨ p.name = Manifest.fileName ∨
      (∃ s ∈ r.foundSources w.disk, p = Sketch.outputOf ws.sketchDir s) ∨
      (∃ n, p = ws.sketchDir.child n ∧ n ∉ ["", ".", ".."] ∧
        Text.endsWith n Sketch.entrySuffix = false ∧ Text.endsWith n Sketch.outputSuffix = false) →
      ws.Spares p := by
  intro ws w'
  refine ⟨?_, fun d d' h => ⟨.of_steps h, fun p c hc hp => ?_⟩, fun p hp => ?_⟩
  · obtain ⟨ss, ht, hexp⟩ := covers_build b r w
    exact ⟨ss, ht.past, hexp⟩
  · exact (Frame.of_steps h).content?_eq_some (hp.elim id fun hp => hp.foreign d) hc
  · rcases hp with hp | hp | ⟨s, hs, rfl⟩ | ⟨n, rfl, hn, hentry, houtput⟩
    · exact spares_of_endsWith hp (by decide) (by decide) (by decide)
    · have hname : Text.endsWith p.name ".json" = true := by
        rw [hp]
        decide
      exact spares_of_endsWith hname (by decide) (by decide) (by decide)
    · have hname : (Sketch.outputOf ws.sketchDir s).name = s.stem ++ Sketch.outputSuffix :=
        Path.name_child _ _
      have hends := Text.endsWith_append s.stem Sketch.outputSuffix
      rw [← hname] at hends
      refine ⟨proper_of_endsWith hends (by decide), ?_, fun hstale => hstale.2 ?_⟩
      · intro heq
        rw [heq] at hends
        exact Sketch.not_endsWith_entryName ws.sketchDir hends
      · rw [hname]
        exact List.mem_map_of_mem hs
    · rw [← Path.name_child ws.sketchDir n] at hn hentry houtput
      refine ⟨hn, ?_, ?_⟩
      · intro heq
        rw [heq, entryName, Sketch.endsWith_entryName] at hentry
        cases hentry
      · rintro ⟨hends, -⟩
        rw [hends] at houtput
        cases houtput

end Builds

end Build

end SketchBuild
