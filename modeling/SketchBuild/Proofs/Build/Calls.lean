import SketchBuild.Proofs.Build.Prepare
import SketchBuild.Proofs.Compilation

/-! # The programs that a build starts

A build starts the translator once for each source, in order, until one run does not succeed; then
it may start the compiler once. -/

namespace SketchBuild.Build

open SketchBuild.Action

/-! ## Translating all sources -/

/-- The program that translates one of the sources of a build. -/
def Builder.translation (b : Builder) (r : Request) (source : Path) : Tool.Invocation :=
  b.translator.invocation source (Sketch.outputOf (r.sketchDir r.root) source) (b.boardFor r)
    r.wantsSourceMap

/-- The program that compiles the sketch of a build. -/
def Builder.compilation (b : Builder) (r : Request) (board : Board) : Tool.Invocation :=
  b.compiler.invocation (r.sketchDir r.root) board.fqbn (r.root.child cacheName)

/-- A translated source is told, and the rest follow. -/
theorem translateAll_cons_of_ok {t : Translator} {dir source : Path} {board : Json}
    {sourceMap : Bool} {w w₁ : World} {o : Translator.Outcome}
    (h : t.translate source (Sketch.outputOf dir source) board sourceMap w = .ok o w₁)
    (rest : List Path) :
    ∃ w₂, Quiet w₁ w₂ ∧
      translateAll t dir board sourceMap (source :: rest) w =
        (translateAll t dir board sourceMap rest >>= fun done => pure (o :: done)) w₂ := by
  rw [translateAll, bind_of_ok h]
  obtain ⟨w₂, hq₂, hrun₂⟩ := (Shows.log .info _).bind_apply _ w₁
  rw [hrun₂]
  obtain ⟨w₃, hq₃, hrun₃⟩ := (Shows.print _).bind_apply _ w₂
  rw [hrun₃]
  exact ⟨w₃, hq₂.trans hq₃, rfl⟩

/-- **Translating all sources** stops at the first run that does not succeed. -/
theorem translateAll_cases {t : Translator} {board : Json} (ht : t.binary.isText = true)
    (hb : board.isText = true) (dir : Path) (sourceMap : Bool) (sources : List Path) (w : World) :
    let program := fun s => t.invocation s (Sketch.outputOf dir s) board sourceMap
    ∃ runs w', Trail w w' runs ∧
      ((∃ done, translateAll t dir board sourceMap sources w = .ok done w' ∧
          done.map (·.output) = sources.map (Sketch.outputOf dir) ∧
          runs.map (·.invocation) = sources.map program ∧
          Tool.AllSucceed w.tools w.past runs) ∨
        ∃ before source after ss s f, sources = before ++ source :: after ∧ runs = ss ++ [s] ∧
          ss.map (·.invocation) = before.map program ∧ s.invocation = program source ∧
          Tool.AllSucceed w.tools w.past ss ∧
          t.report source (Sketch.outputOf dir source) (s.response w.tools (w.past ++ ss)) =
            .error f ∧
          translateAll t dir board sourceMap sources w = .error f w' ∧
          w'.disk = s.disk.withTree (s.response w.tools (w.past ++ ss)).tree) := by
  intro program
  induction sources generalizing w with
  | nil => exact ⟨[], w, .refl w, Or.inl ⟨[], rfl, rfl, rfl, trivial⟩⟩
  | cons source rest ih =>
      obtain ⟨w₁, hran, hrun⟩ :=
        Translator.translate_apply ht hb source (Sketch.outputOf dir source) sourceMap w
      let s : Tool.Start := ⟨program source, w.disk⟩
      cases hrep : t.report source (Sketch.outputOf dir source) (w.response (program source)) with
      | error f =>
          -- the first run stops the build
          rw [hrep] at hrun
          refine ⟨[s], w₁, hran.trail, Or.inr ⟨[], source, rest, [], s, f, rfl, rfl, rfl, rfl,
            trivial, ?_, ?_, ?_⟩⟩
          · rw [List.append_nil]
            exact hrep
          · rw [translateAll]
            exact bind_of_error hrun
          · rw [List.append_nil]
            exact hran.disk
      | ok o =>
          rw [hrep] at hrun
          have hs : (s.response w.tools w.past).succeeds = true := by
            rw [← Translator.isOk_report t source (Sketch.outputOf dir source)]
            show (t.report source _ (w.response (program source))).isOk = true
            rw [hrep]
            rfl
          have ho : o.output = Sketch.outputOf dir source := Translator.output_of_report hrep
          obtain ⟨w₂, hq₂, hrun₂⟩ := translateAll_cons_of_ok hrun rest
          have ht₂ : Trail w w₂ [s] := hran.trail.trans_silent hq₂.trail
          -- the rest is translated in the world that the first run left
          obtain ⟨runs, w', htr, hcases⟩ := ih w₂
          rw [ht₂.tools, ht₂.past] at hcases
          rw [hrun₂]
          refine ⟨s :: runs, w', ht₂.trans htr, ?_⟩
          rcases hcases with ⟨done, hok, hout, hinv, hall⟩ |
            ⟨before, x, after, ss, s', f, hsrc, hruns, hinv, hx, hall, hfail, herr, hdisk⟩
          · refine Or.inl ⟨o :: done, bind_of_ok hok, ?_, ?_, hs, hall⟩
            · simp [ho, hout]
            · simp [s, hinv]
          · refine Or.inr ⟨source :: before, x, after, s :: ss, s', f, ?_, ?_, ?_, hx, ⟨hs, hall⟩,
              ?_, bind_of_error herr, ?_⟩
            · rw [hsrc, List.cons_append]
            · rw [hruns, List.cons_append]
            · simp [s, hinv]
            · simpa using hfail
            · simpa using hdisk

/-- No source is translated if a word of the command is no text. -/
theorem translateAll_of_not_isText {t : Translator} {board : Json}
    (h : ¬ (t.binary.isText = true ∧ board.isText = true)) (dir : Path) (sourceMap : Bool)
    (source : Path) (rest : List Path) (w : World) :
    ∃ f w', translateAll t dir board sourceMap (source :: rest) w = .error f w' ∧ Quiet w w' := by
  obtain ⟨f, w', herr, hq⟩ :=
    Translator.translate_of_not_isText h source (Sketch.outputOf dir source) sourceMap w
  rw [translateAll]
  exact ⟨f, w', bind_of_error herr, hq⟩

/-- Only sources of the build are translated, each into its own output. -/
theorem translateAll_runs (t : Translator) (board : Json) (dir : Path) (sourceMap : Bool)
    (sources : List Path) (w : World) :
    ∃ runs w', Trail w w' runs ∧
      (∀ s ∈ runs, ∃ source ∈ sources,
        s.invocation = t.invocation source (Sketch.outputOf dir source) board sourceMap) ∧
      ((∃ done, translateAll t dir board sourceMap sources w = .ok done w' ∧
          done.map (·.output) = sources.map (Sketch.outputOf dir)) ∨
        ∃ f, translateAll t dir board sourceMap sources w = .error f w') := by
  by_cases htext : t.binary.isText = true ∧ board.isText = true
  · obtain ⟨runs, w', htr, hcases⟩ :=
      translateAll_cases htext.1 htext.2 dir sourceMap sources w
    refine ⟨runs, w', htr, ?_⟩
    rcases hcases with ⟨done, hok, hout, hinv, -⟩ |
      ⟨before, source, after, ss, s, f, rfl, rfl, hinv, hs, -, -, herr, -⟩
    · refine ⟨?_, Or.inl ⟨done, hok, hout⟩⟩
      intro s hs
      have hmem : s.invocation ∈ runs.map (·.invocation) := List.mem_map_of_mem hs
      rw [hinv] at hmem
      obtain ⟨source, hsource, heq⟩ := List.mem_map.mp hmem
      exact ⟨source, hsource, heq.symm⟩
    · refine ⟨?_, Or.inr ⟨f, herr⟩⟩
      intro s' hs'
      rcases List.mem_append.mp hs' with hmem | hmem
      · have hmem' : s'.invocation ∈ ss.map (·.invocation) := List.mem_map_of_mem hmem
        rw [hinv] at hmem'
        obtain ⟨x, hx, heq⟩ := List.mem_map.mp hmem'
        exact ⟨x, List.mem_append_left _ hx, heq.symm⟩
      · obtain rfl := List.mem_singleton.mp hmem
        exact ⟨source, List.mem_append_right _ List.mem_cons_self, hs⟩
  · -- a command that is not all text cannot be started
    cases sources with
    | nil => exact ⟨[], w, .refl w, by simp, Or.inl ⟨[], rfl, rfl⟩⟩
    | cons source rest =>
        obtain ⟨f, w', herr, hq⟩ := translateAll_of_not_isText htext dir sourceMap source rest w
        exact ⟨[], w', hq.trail, by simp, Or.inr ⟨f, herr⟩⟩

/-! ## Compiling -/

theorem silent_checkSketch (dir : Path) (outputs : List Path) :
    Silent (checkSketch dir outputs) := by
  refine (Sketch.silent_check dir (some outputs)).tryCatch fun e => ?_
  split <;> exact .throw _

theorem checkSketch_eq_ok {dir : Path} {outputs : List Path} {w w' : World}
    {sketch : Sketch.Checked} (h : checkSketch dir outputs w = .ok sketch w') :
    w' = w ∧ sketch.dir = dir ∧ Sketch.Accepted w.disk dir outputs := by
  unfold checkSketch at h
  cases hc : Sketch.check dir (some outputs) w with
  | ok a w₁ =>
      rw [tryCatch_of_ok hc] at h
      cases h
      exact Sketch.check_eq_ok hc
  | error e w₁ =>
      rw [tryCatch_of_error hc] at h
      split at h <;> cases h

/-- What the compiler gives, or its fault, becomes that of the build. -/
theorem compileSketch_cases (c : Compiler) (sketch : Sketch.Checked) (fqbn : String)
    (cache : Path) (result : Result) (w : World) :
    (∃ firmware w', c.compile sketch fqbn cache w = .ok firmware w' ∧
      compileSketch c sketch fqbn cache result w = .ok firmware w') ∨
    ∃ f f' w', c.compile sketch fqbn cache w = .error f w' ∧
      compileSketch c sketch fqbn cache result w = .error f' w' := by
  unfold compileSketch
  cases hc : c.compile sketch fqbn cache w with
  | ok firmware w' => exact Or.inl ⟨firmware, w', rfl, tryCatch_of_ok hc⟩
  | error f w' =>
      refine Or.inr ⟨f, ?_⟩
      rw [tryCatch_of_error hc]
      split <;> exact ⟨_, w', rfl, rfl⟩

/-- **Compiling what was translated** stops before the compiler is reached, or is what the compiler
does, for a board of the catalog and a sketch that passed the check. -/
theorem compile_cases (b : Builder) (root : Path) (result : Result) (w : World) :
    (∃ f w', b.compile root result w = .error f w' ∧ Trail w w' []) ∨
    ∃ board sketch w₁, Board.ofStr? result.board = some board ∧ sketch.dir = result.sketchDir ∧
      Sketch.Accepted w.disk result.sketchDir result.outputs ∧ Quiet w w₁ ∧
      let x := b.compiler.compile sketch board.fqbn (root.child cacheName)
      Quiet (x.after w₁) ((b.compile root result).after w) ∧
      ((∃ f f' w', x w₁ = .error f w' ∧ b.compile root result w = .error f' w') ∨
        ∃ firmware w' w'', x w₁ = .ok firmware w' ∧
          b.compile root result w =
            .ok { result with fqbn := some board.fqbn, firmware } w'') := by
  generalize hres : b.compile root result w = res
  have hcopy := hres
  unfold Builder.compile at hres
  cases hboard : Board.ofStr? result.board with
  | none =>
      rw [hboard] at hres
      exact Or.inl ⟨_, w, hres.symm, .refl w⟩
  | some board =>
      rw [hboard] at hres
      dsimp only at hres
      obtain ⟨w₁, hq₁, hrun₁⟩ := (shows_step b 5 _).bind_apply _ w
      rw [hrun₁] at hres
      have hsilent := silent_checkSketch result.sketchDir result.outputs w₁
      cases hcheck : checkSketch result.sketchDir result.outputs w₁ with
      | error f w₂ =>
          rw [bind_of_error hcheck] at hres
          rw [after_of_error hcheck] at hsilent
          exact Or.inl ⟨f, w₂, hres.symm, hq₁.trail.silent_trans hsilent⟩
      | ok sketch w₂ =>
          obtain ⟨rfl, hdir, haccepted⟩ := checkSketch_eq_ok hcheck
          rw [bind_of_ok hcheck] at hres
          obtain ⟨w₃, hq₃, hrun₃⟩ := (shows_step b 6 _).bind_apply _ w₂
          rw [hrun₃] at hres
          rw [hq₁.disk] at haccepted
          refine Or.inr ⟨board, sketch, w₃, rfl, hdir, haccepted, hq₁.trans hq₃, ?_⟩
          rcases compileSketch_cases b.compiler sketch board.fqbn (root.child cacheName)
            { result with fqbn := some board.fqbn } w₃ with
            ⟨firmware, w', hc, hr⟩ | ⟨f, f', w', hc, hr⟩
          · rw [bind_of_ok hr] at hres
            obtain ⟨w₄, hq₄, hrun₄⟩ := (Shows.log .warning _).ite_bind_apply
              (firmware.isNone = true) _ w'
            rw [hrun₄] at hres
            refine ⟨?_, Or.inr ⟨firmware, w', w₄, hc, hres.symm⟩⟩
            rw [after_of_ok hc, after_of_ok (hcopy.trans hres.symm)]
            exact hq₄
          · rw [bind_of_error hr] at hres
            refine ⟨?_, Or.inl ⟨f, f', w', hc, hres.symm⟩⟩
            rw [after_of_error hc, after_of_error (hcopy.trans hres.symm)]
            exact .refl w'

/-! ## The whole build -/

theorem silent_assemble (b : Builder) (result : Result) : Silent (b.assemble result) := by
  have hclear : Silent (clearStale result.sketchDir result.outputs) :=
    (Sketch.silent_removeStale _ _).bind fun _ => (Shows.forM (fun _ => .log _ _) _).silent
  exact hclear.bind fun _ =>
    (Sketch.silent_writeEntryPoint _).bind fun _ => (shows_step b 4 _).silent

/-- The compiler is started at most once: for a board of the catalog, with a sketch that passed the
check, when the build directory was made. -/
theorem compile_trail (b : Builder) (root : Path) (result : Result) (w : World) :
    ∃ tail, Trail w ((b.compile root result).after w) tail ∧
      (tail = [] ∨ ∃ board d, Board.ofStr? result.board = some board ∧
        Sketch.Accepted w.disk result.sketchDir result.outputs ∧
        w.disk.makePath (root.child cacheName) = (none, d) ∧
        tail =
          [⟨b.compiler.invocation result.sketchDir board.fqbn (root.child cacheName), d⟩]) := by
  rcases compile_cases b root result w with
    ⟨f, w', herr, htr⟩ | ⟨board, sketch, w₁, hboard, hdir, haccepted, hq, hquiet, -⟩
  · rw [after_of_error herr]
    exact ⟨[], htr, Or.inl rfl⟩
  · rcases Compiler.compile_cases b.compiler sketch board.fqbn (root.child cacheName) w₁ with
      ⟨f, w₂, herr, htr⟩ | ⟨d, w₂, hmake, htr, -, hend⟩
    · rw [after_of_error herr] at hquiet
      exact ⟨[], hq.trail.silent_trans (htr.silent_trans hquiet.trail), Or.inl rfl⟩
    · have hw₂ : (b.compiler.compile sketch board.fqbn (root.child cacheName)).after w₁ = w₂ := by
        rcases hend with ⟨-, f, herr⟩ | ⟨-, hfind⟩
        · exact after_of_error herr
        · rw [after_congr hfind, Compiler.after_findFirmware]
      rw [hw₂] at hquiet
      rw [hq.disk] at hmake
      rw [hdir] at htr
      exact ⟨_, (hq.trail.silent_trans htr).trans_silent hquiet.trail,
        Or.inr ⟨board, d, hboard, haccepted, hmake, rfl⟩⟩

/-- After the last source no program is started, or what was translated is compiled. -/
theorem finish_cases (b : Builder) (r : Request) (root : Path) (result : Result) (w : World) :
    Trail w ((b.finish r root result).after w) [] ∨
    r.compile = true ∧ ∃ w₁, b.assemble result w = .ok () w₁ ∧ Trail w w₁ [] ∧
      b.finish r root result w = b.compile root result w₁ := by
  unfold Builder.finish
  have hsilent := silent_assemble b result w
  cases ha : b.assemble result w with
  | error f w₁ =>
      rw [after_of_error ha] at hsilent
      rw [after_bind_of_error ha]
      exact Or.inl hsilent
  | ok _ w₁ =>
      rw [after_of_ok ha] at hsilent
      cases hcompile : r.compile with
      | false =>
          rw [after_bind_of_ok ha]
          exact Or.inl hsilent
      | true =>
          refine Or.inr ⟨rfl, w₁, rfl, hsilent, ?_⟩
          rw [bind_of_ok ha, if_pos rfl]

/-- After the last source at most one more program is started, and only to compile. -/
theorem finish_trail (b : Builder) (r : Request) (root : Path) (result : Result) (w : World) :
    ∃ tail, Trail w ((b.finish r root result).after w) tail ∧
      (tail = [] ∨ r.compile = true ∧ ∃ board w₁ d, Board.ofStr? result.board = some board ∧
        b.assemble result w = .ok () w₁ ∧
        Sketch.Accepted w₁.disk result.sketchDir result.outputs ∧
        w₁.disk.makePath (root.child cacheName) = (none, d) ∧
        tail =
          [⟨b.compiler.invocation result.sketchDir board.fqbn (root.child cacheName), d⟩]) := by
  rcases finish_cases b r root result w with htr | ⟨hcompile, w₁, hassemble, htr₁, hfinish⟩
  · exact ⟨[], htr, Or.inl rfl⟩
  · obtain ⟨tail, htr, hcases⟩ := compile_trail b root result w₁
    rw [after_congr hfinish]
    refine ⟨tail, htr₁.silent_trans htr, ?_⟩
    rcases hcases with hnil | ⟨board, d, hboard, haccepted, hmake, htail⟩
    · exact Or.inl hnil
    · exact Or.inr ⟨hcompile, board, w₁, d, hboard, hassemble, haccepted, hmake, htail⟩

/-- A build that was prepared goes on to translate. -/
theorem build_of_prepare {b : Builder} {r : Request} {w w₁ : World} {root : Path}
    {sources : List Path} (h : b.prepare r w = .ok (root, sources) w₁) :
    b.build r w = (translateAll b.translator (r.sketchDir root) (b.boardFor r) r.wantsSourceMap
      sources >>= fun done => b.finish r root
        (.ofTranslation (r.sketchDir root) (b.boardFor r) done)) w₁ :=
  bind_of_ok h

/-- The build is ready, and the word for its board is a text. -/
def Builder.Starts (b : Builder) (r : Request) (w : World) : Prop :=
  b.Ready r w ∧ (b.boardFor r).isText = true

/-- A build that does not start its translator stops. -/
theorem build_of_not_starts {b : Builder} {r : Request} {w : World} (h : ¬ b.Starts r w) :
    ∃ f w', b.build r w = .error f w' ∧ Trail w w' [] := by
  rcases prepare_cases b r w with ⟨w₁, hready, hprep, ht₁, -⟩ | ⟨-, f, w₁, hprep, ht₁⟩
  · have hboard : ¬ (b.translator.binary.isText = true ∧ (b.boardFor r).isText = true) :=
      fun htext => h ⟨hready, htext.2⟩
    obtain ⟨source, rest, hsources⟩ := List.exists_cons_of_ne_nil hready.found
    obtain ⟨f, w₂, herr, hq⟩ := translateAll_of_not_isText hboard (r.sketchDir r.root)
      r.wantsSourceMap source rest w₁
    rw [← hsources] at herr
    exact ⟨f, w₂, (build_of_prepare hprep).trans (bind_of_error herr),
      ht₁.silent_trans hq.trail⟩
  · exact ⟨f, w₁, bind_of_error hprep, ht₁⟩

namespace Sample

def settings : Settings := { coreBinary := .text "/core" }

def manifest : Manifest where
  name := .text "blink"
  board := .text "uno"
  version := .text "1"
  goVersion := .text "1"
  description := .text ""
  dependencies := []
  build := {}

def request : Request := { projectDir := ⟨.slash, ["p"]⟩, manifest }

def entries : List (Location × Entry) :=
  [(["p"], .directory), (["p", "src"], .directory), (["core"], .file [] true)] ++
    [("c.go", 99), ("a.go", 97), ("b.go", 98)].map fun (n, c) => (["p", "src", n], .file [c] false)

def tools (bad : String) : Tool.Tools := fun _ i d =>
  let failed : Tool.Response := ⟨d.tree, .ok ⟨1, .empty, .exited 1 [] []⟩⟩
  if i.argv.getD 1 "" = bad then failed
  else
    match d.readFile (.ofString (i.argv.getD 1 "")) with
    | .error _ => failed
    | .ok content =>
      match d.writeFile (.ofString (i.argv.getD 2 "")) content with
      | .ok d' => ⟨d'.tree, .ok ⟨1, .empty, .exited 0 [] []⟩⟩
      | .error _ => failed

def world (bad : String) : World where
  disk := ⟨.ofList entries, ⟨[], 0⟩, rfl⟩
  env := ⟨none, none, none, none⟩
  tools := tools bad
  host := ⟨"", "", "", .ofDepths 900 900⟩

end Sample

end SketchBuild.Build
