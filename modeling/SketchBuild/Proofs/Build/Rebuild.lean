import SketchBuild.Proofs.Build.ExactSketch

/-! # Building again

A translator that goes by its command and the content of the source alone makes a build that goes by
its sources alone. Every output is written anew, every other output is cleared away and the entry
point is written over, so nothing of what was in the sketch directory before can be seen in what a
build leaves there or in its result. -/

namespace SketchBuild

open SketchBuild.Action

/-! ## Translating by rule -/

namespace Translator

/-- What a translator makes of a source: its exit code, its messages and the output. -/
structure Product where
  code : Int
  stderr : List UInt8
  output : List UInt8

/-- What a translator makes of its command and of the content of the source, if there is any. -/
abbrev Rule := Tool.Invocation → Option (List UInt8) → Product

/-- The program `i` works by rule: where its output can be written, it ends as the rule says, and if
that is a success it has written its output and nothing else. Where its output cannot be written or
its source cannot be read, it does not succeed. -/
structure Rule.Governs (f : Rule) (tools : Tool.Tools) (i : Tool.Invocation)
    (source output : Path) : Prop where
  unread : (f i none).code ≠ 0
  written : ∀ past d d', d.writeFile output (f i (d.content? source)).output = .ok d' →
    ∃ run stdout, (tools past i d).outcome = .ok run ∧
      run.ending = .exited (f i (d.content? source)).code stdout
        (f i (d.content? source)).stderr ∧
      ((f i (d.content? source)).code = 0 → (tools past i d).tree = d'.tree)
  unwritten : ∀ past d e, d.writeFile output (f i (d.content? source)).output = .error e →
    (tools past i d).succeeds = false

/-- What is told of a source that was translated by rule. -/
def Product.outcome (product : Product) (source output : Path) : Outcome :=
  ⟨source, output, warnings (Tool.Output.decode product.stderr)⟩

/-- A translation by rule succeeds if its output can be written and the rule says so. -/
theorem translate_by_rule {t : Translator} {board : Json} (ht : t.binary.isText = true)
    (hb : board.isText = true) {source output : Path} {sourceMap : Bool} {f : Rule} {w : World}
    (hf : f.Governs w.tools (t.invocation source output board sourceMap) source output) :
    let i := t.invocation source output board sourceMap
    let product := f i (w.disk.content? source)
    (∃ d' w', w.disk.writeFile output product.output = .ok d' ∧ product.code = 0 ∧
      Trail w w' [⟨i, w.disk⟩] ∧ w'.disk = w.disk.withTree d'.tree ∧
      t.translate source output board sourceMap w = .ok (product.outcome source output) w') ∨
    ((product.code = 0 → ∃ e, w.disk.writeFile output product.output = .error e) ∧
      ∃ e w', t.translate source output board sourceMap w = .error e w') := by
  intro i product
  obtain ⟨w', hran, hrun⟩ := translate_apply ht hb source output sourceMap w
  rw [hrun]
  cases hwrite : w.disk.writeFile output product.output with
  | error e =>
      have hfail := hf.unwritten (w.past.map (·.invocation)) w.disk e hwrite
      rw [← isOk_report t source output] at hfail
      refine Or.inr ⟨fun _ => ⟨e, rfl⟩, ?_⟩
      cases hrep : t.report source output (w.response i) with
      | error e' => exact ⟨e', w', rfl⟩
      | ok o =>
          change (t.report source output (w.response i)).isOk = false at hfail
          rw [hrep] at hfail
          cases hfail
  | ok d' =>
      obtain ⟨run, stdout, hout, hend, htree⟩ :=
        hf.written (w.past.map (·.invocation)) w.disk d' hwrite
      change (w.response i).outcome = .ok run at hout
      by_cases hcode : product.code = 0
      · refine Or.inl ⟨d', w', rfl, hcode, hran.trail, ?_, ?_⟩
        · rw [hran.disk]
          exact congrArg _ (htree hcode)
        · rw [report, hout]
          simp only [hend]
          rw [if_pos hcode]
          rfl
      · refine Or.inr ⟨fun h => absurd h hcode, ?_⟩
        rw [report, hout]
        simp only [hend]
        rw [if_neg hcode]
        split <;> exact ⟨_, w', rfl⟩

end Translator

namespace Build

open Translator (Rule Product)

/-! ## Translating all sources by rule -/

/-- The name of the output of a source. -/
def outputName (source : Path) : String := source.stem ++ Sketch.outputSuffix

theorem endsWith_outputName (s : Path) :
    Text.endsWith (outputName s) Sketch.outputSuffix = true :=
  Text.endsWith_append _ _

theorem outputName_ne_dot (s : Path) : outputName s ≠ "." :=
  Text.ne_of_endsWith (endsWith_outputName s) (by decide)

theorem outputName_ne_dotDot (s : Path) : outputName s ≠ ".." :=
  Text.ne_of_endsWith (endsWith_outputName s) (by decide)

theorem outputName_inj {s s' : Path} (h : outputName s = outputName s') : s.stem = s'.stem := by
  have hl := congrArg String.toList h
  rw [outputName, outputName, String.toList_append, String.toList_append] at hl
  exact String.toList_injective (List.append_cancel_right hl)

theorem target_outputOf (d : Disk) (dir s : Path) :
    d.target (Sketch.outputOf dir s) = ⟨(d.target dir).loc ++ [outputName s], 0⟩ :=
  Disk.target_child (outputName_ne_dot s) (outputName_ne_dotDot s)

/-- What a rule makes of a source of a build, given the disk. -/
def productOf (t : Translator) (dir : Path) (board : Json) (sourceMap : Bool) (f : Rule) (d : Disk)
    (s : Path) : Product :=
  f (t.invocation s (Sketch.outputOf dir s) board sourceMap) (d.content? s)

/-- The translator works by the rule `f` on each of the sources. -/
def Governed (t : Translator) (dir : Path) (board : Json) (sourceMap : Bool) (f : Rule)
    (tools : Tool.Tools) (sources : List Path) : Prop :=
  ∀ s ∈ sources, f.Governs tools (t.invocation s (Sketch.outputOf dir s) board sourceMap) s
    (Sketch.outputOf dir s)

section Loop

variable {t : Translator} {dir : Path} {board : Json} {sourceMap : Bool} {f : Rule}

theorem productOf_of_confined {d d' : Disk} {P : String → Prop} {loc : Location}
    (h : d.Confined loc P d') {s : Path} (hs : ∀ n, (d.target s).loc ≠ loc ++ [n]) :
    productOf t dir board sourceMap f d' s = productOf t dir board sourceMap f d s := by
  rw [productOf, productOf, h.content?_eq fun n _ => hs n]

/-- **Translating all sources by rule** tells of each source what the rule makes of it and writes
this into its output. -/
theorem translateAll_by_rule {sources : List Path} {w w' : World}
    {done : List Translator.Outcome} (ht : t.binary.isText = true) (hb : board.isText = true)
    (hf : Governed t dir board sourceMap f w.tools sources)
    (hnd : (sources.map Path.stem).Nodup)
    (hout : ∀ s ∈ sources, ∀ n, (w.disk.target s).loc ≠ (w.disk.target dir).loc ++ [n])
    (h : translateAll t dir board sourceMap sources w = .ok done w') :
    done = sources.map (fun s =>
        (productOf t dir board sourceMap f w.disk s).outcome s (Sketch.outputOf dir s)) ∧
      w.disk.Confined (w.disk.target dir).loc (· ∈ sources.map outputName) w'.disk ∧
      ∀ s ∈ sources, (productOf t dir board sourceMap f w.disk s).code = 0 ∧
        ∃ x, w'.disk.stat (Sketch.outputOf dir s) =
          .ok (.file (productOf t dir board sourceMap f w.disk s).output x) := by
  induction sources generalizing w done with
  | nil =>
      cases h
      exact ⟨rfl, .refl _ _ _, by simp⟩
  | cons s rest ih =>
      obtain ⟨hfs, hfrest⟩ := List.forall_mem_cons.mp hf
      obtain ⟨houts, houtrest⟩ := List.forall_mem_cons.mp hout
      obtain ⟨hns, hndrest⟩ := List.nodup_cons.mp hnd
      rcases Translator.translate_by_rule ht hb hfs with
        ⟨d, w₁, hwrite, hcode, htr₁, hdisk₁, hrun⟩ | ⟨-, e, w₁, hrun⟩
      · obtain ⟨w₂, hq₂, hrun₂⟩ := translateAll_cons_of_ok hrun rest
        rw [hrun₂] at h
        obtain ⟨done', w₃, hrest, hpure⟩ := bind_eq_ok_iff.mp h
        cases hpure
        -- the world in which the other sources are translated
        have hconf : w.disk.Confined (w.disk.target dir).loc (· = outputName s) d :=
          Disk.writeFile_child_confined hwrite (outputName_ne_dot s) (outputName_ne_dotDot s)
        have hd₂ : w₂.disk = d := by
          rw [hq₂.disk, hdisk₁, Disk.withTree_of_cwd hconf.cwd]
        have htools : w₂.tools = w.tools := (htr₁.trans_silent hq₂.trail).tools
        rw [← hd₂] at hconf
        have htarget : ∀ p, w₂.disk.target p = w.disk.target p := Disk.target_of_cwd hconf.cwd
        -- the other sources are as they were, since only an output was written
        obtain ⟨hdone, hconf', hall⟩ := ih (by rwa [htools]) hndrest
          (by simpa only [htarget] using houtrest) hrest
        rw [htarget] at hconf'
        have hsame : ∀ s' ∈ rest, productOf t dir board sourceMap f w₂.disk s' =
            productOf t dir board sourceMap f w.disk s' :=
          fun s' hs' => productOf_of_confined hconf (houtrest s' hs')
        refine ⟨?_, (hconf.mono ?_).trans (hconf'.mono ?_), ?_⟩
        · rw [hdone, List.map_cons]
          refine congrArg (_ :: ·) (List.map_congr_left fun s' hs' => ?_)
          rw [hsame s' hs']
        · rintro n rfl
          exact List.mem_cons_self
        · intro n hn
          exact List.mem_cons_of_mem _ hn
        · refine List.forall_mem_cons.mpr ⟨⟨hcode, ?_⟩, fun s' hs' => ?_⟩
          · refine ⟨_, (hconf'.stat_eq_ok_iff fun n hn heq => hns ?_).mpr
              (hd₂ ▸ Disk.stat_of_writeFile hwrite)⟩
            -- no other source has an output of this name
            rw [htarget, target_outputOf] at heq
            obtain rfl := List.singleton_inj.mp (List.append_cancel_left heq)
            obtain ⟨s', hs', hname⟩ := List.mem_map.mp hn
            exact List.mem_map.mpr ⟨s', hs', outputName_inj hname⟩
          · rw [← hsame s' hs']
            exact hall s' hs'
      · rw [translateAll, bind_of_error hrun] at h
        cases h

/-- Where each output is already what the rule makes of its source, translating all sources succeeds
and changes nothing. -/
theorem translateAll_again {sources : List Path} {w : World} (ht : t.binary.isText = true)
    (hb : board.isText = true) (hf : Governed t dir board sourceMap f w.tools sources)
    (hmade : ∀ s ∈ sources, (productOf t dir board sourceMap f w.disk s).code = 0 ∧
      ∃ x, w.disk.stat (Sketch.outputOf dir s) =
        .ok (.file (productOf t dir board sourceMap f w.disk s).output x)) :
    ∃ w', translateAll t dir board sourceMap sources w = .ok (sources.map fun s =>
        (productOf t dir board sourceMap f w.disk s).outcome s (Sketch.outputOf dir s)) w' ∧
      w.disk.Same w'.disk := by
  induction sources generalizing w with
  | nil => exact ⟨w, rfl, .refl _⟩
  | cons s rest ih =>
      obtain ⟨hfs, hfrest⟩ := List.forall_mem_cons.mp hf
      obtain ⟨⟨hcode, x, hstat⟩, hmaderest⟩ := List.forall_mem_cons.mp hmade
      obtain ⟨d, hwrite, hsame⟩ := Disk.writeFile_of_stat hstat
      rcases Translator.translate_by_rule ht hb hfs with
        ⟨d', w₁, hwrite', -, htr₁, hdisk₁, hrun⟩ | ⟨hfail, -⟩
      · obtain rfl : d' = d := Except.ok.inj (hwrite'.symm.trans hwrite)
        obtain ⟨w₂, hq₂, hrun₂⟩ := translateAll_cons_of_ok hrun rest
        have hconf : w.disk.Confined (w.disk.target dir).loc (· = outputName s) d' :=
          Disk.writeFile_child_confined hwrite (outputName_ne_dot s) (outputName_ne_dotDot s)
        have hd₂ : w₂.disk = d' := by
          rw [hq₂.disk, hdisk₁, Disk.withTree_of_cwd hconf.cwd]
        have htools : w₂.tools = w.tools := (htr₁.trans_silent hq₂.trail).tools
        rw [← hd₂] at hsame hconf
        have hproduct : ∀ s', productOf t dir board sourceMap f w₂.disk s' =
            productOf t dir board sourceMap f w.disk s' := by
          intro s'
          rw [productOf, productOf, hsame.content?_eq]
        obtain ⟨w₃, hrest, hsame'⟩ := ih (by rwa [htools]) (by
          simpa only [hproduct, hsame.stat_eq_ok_iff] using hmaderest)
        refine ⟨w₃, ?_, hsame.trans hsame'⟩
        rw [hrun₂, bind_of_ok hrest]
        simp only [hproduct]
        rfl
      · obtain ⟨e, herr⟩ := hfail hcode
        cases hwrite.symm.trans herr

theorem isText_of_translateAll {sources : List Path} {w w' : World}
    {done : List Translator.Outcome} (hne : sources ≠ [])
    (h : translateAll t dir board sourceMap sources w = .ok done w') :
    t.binary.isText = true ∧ board.isText = true := by
  by_cases htext : t.binary.isText = true ∧ board.isText = true
  · exact htext
  · cases sources with
    | nil => exact absurd rfl hne
    | cons s rest =>
        obtain ⟨e, w₁, hrun, -⟩ := translateAll_of_not_isText htext dir sourceMap s rest w
        cases hrun.symm.trans h

end Loop

/-! ## What a build leaves -/

theorem clearStale_eq_ok {dir : Path} {keep : List Path} {w w' : World}
    (h : clearStale dir keep w = .ok () w') :
    ∃ stale w₁, Sketch.removeStale dir keep w = .ok stale w₁ ∧ Quiet w₁ w' := by
  obtain ⟨stale, w₁, hremove, hlog⟩ := bind_eq_ok_iff.mp h
  exact ⟨stale, w₁, hremove, (Shows.forM (fun _ => .log _ _) stale).quiet hlog⟩

/-- Making a sketch changes stale outputs and the entry point only. No stale output is left, and the
entry point is the generated one. -/
theorem assemble_leaves {b : Builder} {result : Result} {w w' : World}
    (h : b.assemble result w = .ok () w')
    (hs : w.disk.stat result.sketchDir = .ok .directory)
    (h0 : (w.disk.target result.sketchDir).lost = 0) :
    w.disk.Confined (w.disk.target result.sketchDir).loc
        (fun n => Text.endsWith n Sketch.outputSuffix = true ∧
            n ∉ result.outputs.map Path.name ∨
          n = result.sketchDir.name ++ Sketch.entrySuffix) w'.disk ∧
      (∀ n, Text.endsWith n Sketch.outputSuffix = true → n ∉ result.outputs.map Path.name →
        w'.disk.tree.get? ((w.disk.target result.sketchDir).loc ++ [n]) = none) ∧
      ∃ x, w'.disk.stat (Sketch.entryPoint result.sketchDir) =
        .ok (.file (Text.Utf8.encode Sketch.stub) x) := by
  obtain ⟨w₁, hclear, hwrite⟩ := assemble_eq_ok h
  obtain ⟨stale, w₂, hremove, hq⟩ := clearStale_eq_ok hclear
  obtain ⟨hconf, hgone⟩ := Sketch.removeStale_eq_ok hremove hs h0
  rw [← hq.disk] at hconf hgone
  have hconf' := Disk.writeFile_child_confined hwrite (Sketch.entryName_ne_dot _)
    (Sketch.entryName_ne_dotDot _)
  rw [Disk.target_of_cwd hconf.cwd] at hconf'
  refine ⟨(hconf.mono fun n hn => Or.inl hn).trans (hconf'.mono fun n hn => Or.inr hn), ?_,
    _, Disk.stat_of_writeFile hwrite⟩
  intro n hn hkeep
  rw [hconf'.tree.get]
  · exact hgone n hn hkeep
  · rintro m rfl heq
    rw [List.singleton_inj.mp (List.append_cancel_left heq)] at hn
    exact Sketch.not_endsWith_entryName result.sketchDir hn

/-- A successful build without a compilation, step by step. -/
theorem build_eq_ok {b : Builder} {r : Request} {w w' : World} {result : Result}
    (hcompile : r.compile = false) (h : b.build r w = .ok result w') :
    ∃ w₁ done w₂, b.Ready r w ∧ Trail w w₁ [] ∧ w₁.disk = r.preparedDisk w.disk ∧
      translateAll b.translator (r.sketchDir r.root) (b.boardFor r) r.wantsSourceMap
        (r.foundSources w.disk) w₁ = .ok done w₂ ∧
      result = .ofTranslation (r.sketchDir r.root) (b.boardFor r) done ∧
      b.assemble result w₂ = .ok () w' ∧ w'.tools = w.tools ∧ w'.env = w.env := by
  rcases prepare_cases b r w with ⟨w₁, hready, hprep, ht₁, hd₁⟩ | ⟨-, f, w₁, hprep, -⟩
  · rw [build_of_prepare hprep] at h
    obtain ⟨done, w₂, htranslate, hfinish⟩ := bind_eq_ok_iff.mp h
    obtain ⟨_, w₃, hassemble, hrest⟩ := bind_eq_ok_iff.mp hfinish
    rw [hcompile] at hrest
    cases hrest
    obtain ⟨runs, w₄, ht₂, -, hcases⟩ := translateAll_runs b.translator (b.boardFor r)
      (r.sketchDir r.root) r.wantsSourceMap (r.foundSources w.disk) w₁
    obtain rfl : w₄ = w₂ := by
      rcases hcases with ⟨done', hok, -⟩ | ⟨f, herr⟩
      · rw [htranslate] at hok
        cases hok
        rfl
      · rw [htranslate] at herr
        cases herr
    have ht₃ := silent_assemble b (.ofTranslation (r.sketchDir r.root) (b.boardFor r) done) w₄
    rw [after_of_ok hassemble] at ht₃
    have htrail := ht₁.silent_trans (ht₂.trans ht₃)
    exact ⟨w₁, done, w₄, hready, ht₁, hd₁, htranslate, rfl, hassemble, htrail.tools, htrail.env⟩
  · rw [show b.build r w = .error f w₁ from bind_of_error hprep] at h
    cases h

/-- What a rule makes of a source of a request. -/
def Builder.product (b : Builder) (r : Request) (f : Rule) (d : Disk) (s : Path) : Product :=
  f (b.translation r s) (d.content? s)

/-- The result of a build by rule. -/
def Builder.resultBy (b : Builder) (r : Request) (f : Rule) (d : Disk) (sources : List Path) :
    Result :=
  .ofTranslation (r.sketchDir r.root) (b.boardFor r)
    (sources.map fun s =>
      (b.product r f d s).outcome s (Sketch.outputOf (r.sketchDir r.root) s))

/-- What a build by rule leaves of the disk `d`: in the sketch directory, the output of each source,
no other output, and the entry point; all else as it was. -/
structure Builder.Leaves (b : Builder) (r : Request) (f : Rule) (sources : List Path)
    (d d' : Disk) : Prop where
  confined : d.Confined (d.target (r.sketchDir r.root)).loc
    (fun n => Text.endsWith n Sketch.outputSuffix = true ∨
      n = (r.sketchDir r.root).name ++ Sketch.entrySuffix) d'
  outputs : ∀ s ∈ sources, (b.product r f d s).code = 0 ∧
    ∃ x, d'.stat (Sketch.outputOf (r.sketchDir r.root) s) =
      .ok (.file (b.product r f d s).output x)
  others : ∀ n, Text.endsWith n Sketch.outputSuffix = true → n ∉ sources.map outputName →
    d'.tree.get? ((d.target (r.sketchDir r.root)).loc ++ [n]) = none
  entry : ∃ x, d'.stat (Sketch.entryPoint (r.sketchDir r.root)) =
    .ok (.file (Text.Utf8.encode Sketch.stub) x)

theorem names_resultBy (b : Builder) (r : Request) (f : Rule) (d : Disk) (sources : List Path) :
    (b.resultBy r f d sources).outputs.map Path.name = sources.map outputName := by
  rw [Builder.resultBy, Result.ofTranslation, List.map_map, List.map_map]
  exact List.map_congr_left fun s _ => Path.name_child _ _

theorem target_sketchDir (d : Disk) (r : Request) :
    d.target (r.sketchDir r.root) =
      ⟨(d.target r.root).loc ++ [Sketch.nameFor r.manifest.name.shown], 0⟩ :=
  have hname := Sketch.isIdentifier_nameFor r.manifest.name.shown
  Disk.target_child (hname.ne_dot rfl) (hname.ne_dot rfl)

theorem Builder.Ready.prepared {b : Builder} {r : Request} {w : World} (h : b.Ready r w) :
    w.disk.Made (r.sketchDir r.root) (r.preparedDisk w.disk) :=
  Disk.makePath_made (Prod.ext h.made rfl)

/-- **What a build by rule does** depends on its sources and their contents alone. -/
theorem build_by_rule {b : Builder} {r : Request} {f : Rule} {w w' : World} {result : Result}
    (hcompile : r.compile = false)
    (hf : ∀ s ∈ r.foundSources w.disk, f.Governs w.tools (b.translation r s) s
      (Sketch.outputOf (r.sketchDir r.root) s))
    (hout : ∀ s ∈ r.foundSources w.disk, ∀ n,
      (w.disk.target s).loc ≠ (w.disk.target (r.sketchDir r.root)).loc ++ [n])
    (h : b.build r w = .ok result w') :
    result = b.resultBy r f (r.preparedDisk w.disk) (r.foundSources w.disk) ∧
      b.Leaves r f (r.foundSources w.disk) (r.preparedDisk w.disk) w'.disk := by
  obtain ⟨w₁, done, w₂, hready, ht₁, hd₁, htranslate, hresult, hassemble, -, -⟩ :=
    build_eq_ok hcompile h
  have hmade := hready.prepared
  rw [← hd₁] at hmade
  have htarget : ∀ p, w₁.disk.target p = w.disk.target p := Disk.target_of_cwd hmade.cwd
  obtain ⟨ht, hb⟩ := isText_of_translateAll hready.found htranslate
  obtain ⟨hdone, hconf, houtputs⟩ := translateAll_by_rule (f := f) ht hb
    (by rw [ht₁.tools]; exact hf) hready.distinct
    (by simpa only [htarget] using hout) htranslate
  have hresult' : result = b.resultBy r f w₁.disk (r.foundSources w.disk) := by
    rw [hresult, hdone]
    rfl
  have hdir : result.sketchDir = r.sketchDir r.root := by rw [hresult]; rfl
  have hnames : result.outputs.map Path.name = (r.foundSources w.disk).map outputName := by
    rw [hresult', names_resultBy]
  have htarget₂ : ∀ p, w₂.disk.target p = w₁.disk.target p := Disk.target_of_cwd hconf.cwd
  obtain ⟨hconf', hgone, hentry⟩ := assemble_leaves hassemble
    (by rw [hdir]; exact hconf.stat_directory_iff.mpr hmade.stat)
    (by rw [hdir, target_sketchDir])
  rw [hdir, htarget₂, hnames] at hconf' hgone
  rw [hdir] at hentry
  rw [← hd₁]
  refine ⟨hresult', ⟨(hconf.mono ?_).trans (hconf'.mono ?_), fun s hs => ?_, hgone, hentry⟩⟩
  · intro n hn
    obtain ⟨s, -, rfl⟩ := List.mem_map.mp hn
    exact Or.inl (endsWith_outputName s)
  · intro n hn
    exact hn.imp_left And.left
  · obtain ⟨hcode, x, hstat⟩ := houtputs s hs
    refine ⟨hcode, x, (hconf'.stat_eq_ok_iff fun n hn heq => ?_).mpr hstat⟩
    -- what the assembly changes is no output of this build
    rw [htarget₂, target_outputOf] at heq
    obtain rfl := List.singleton_inj.mp (List.append_cancel_left heq)
    rcases hn with ⟨-, hn⟩ | hn
    · exact hn (List.mem_map_of_mem hs)
    · exact Sketch.not_endsWith_entryName (r.sketchDir r.root) (hn ▸ endsWith_outputName s)

/-! ## The second build -/

/-- A sketch with nothing stale in it and the generated entry point is made by changing nothing. -/
theorem assemble_again {b : Builder} {result : Result} {w : World} {x : Bool}
    (hs : w.disk.stat result.sketchDir = .ok .directory)
    (h0 : (w.disk.target result.sketchDir).lost = 0)
    (hclean : ∀ n, Text.endsWith n Sketch.outputSuffix = true →
      (w.disk.tree.get? ((w.disk.target result.sketchDir).loc ++ [n])).isSome = true →
        n ∈ result.outputs.map Path.name)
    (hentry : w.disk.stat (Sketch.entryPoint result.sketchDir) =
      .ok (.file (Text.Utf8.encode Sketch.stub) x)) :
    ∃ w', b.assemble result w = .ok () w' ∧ w.disk.Same w'.disk := by
  have hclear : clearStale result.sketchDir result.outputs w = .ok () w := by
    unfold clearStale
    rw [bind_of_ok (Sketch.removeStale_of_clean hs h0 hclean)]
    rfl
  obtain ⟨d, hwrite, hsame⟩ := Disk.writeFile_of_stat hentry
  have hentry' : Sketch.writeEntryPoint result.sketchDir w =
      .ok (Sketch.entryPoint result.sketchDir) { w with disk := d } := by
    unfold Sketch.writeEntryPoint
    exact bind_of_ok (change_of_ok hwrite)
  unfold Builder.assemble
  rw [bind_of_ok hclear, bind_of_ok hentry']
  obtain ⟨w', hrun, hq⟩ := shows_step b 4 _ { w with disk := d }
  refine ⟨w', hrun, ?_⟩
  rw [hq.disk]
  exact hsame

/-- Translating again what a build by rule left gives the same outcomes. -/
theorem translateAll_of_leaves {b : Builder} {r : Request} {f : Rule} {sources : List Path}
    {d : Disk} {w : World} (hleaves : b.Leaves r f sources d w.disk)
    (ht : b.translator.binary.isText = true) (hb : (b.boardFor r).isText = true)
    (hf : ∀ s ∈ sources, f.Governs w.tools (b.translation r s) s
      (Sketch.outputOf (r.sketchDir r.root) s))
    (hout : ∀ s ∈ sources, ∀ n,
      (d.target s).loc ≠ (d.target (r.sketchDir r.root)).loc ++ [n]) :
    ∃ done w', translateAll b.translator (r.sketchDir r.root) (b.boardFor r) r.wantsSourceMap
        sources w = .ok done w' ∧
      .ofTranslation (r.sketchDir r.root) (b.boardFor r) done = b.resultBy r f d sources ∧
      w.disk.Same w'.disk := by
  have hproduct : ∀ s ∈ sources, b.product r f w.disk s = b.product r f d s := by
    intro s hs
    rw [Builder.product, Builder.product, hleaves.confined.content?_eq fun n _ => hout s hs n]
  have hmade : ∀ s ∈ sources, (b.product r f w.disk s).code = 0 ∧
      ∃ x, w.disk.stat (Sketch.outputOf (r.sketchDir r.root) s) =
        .ok (.file (b.product r f w.disk s).output x) := by
    intro s hs
    rw [hproduct s hs]
    exact hleaves.outputs s hs
  obtain ⟨w', hrun, hsame⟩ := translateAll_again ht hb hf hmade
  refine ⟨_, w', hrun, ?_, hsame⟩
  refine congrArg (Result.ofTranslation _ _) (List.map_congr_left fun s hs => ?_)
  rw [← hproduct s hs]
  rfl

/-- Making a sketch again of what a build by rule left changes nothing. -/
theorem assemble_of_leaves {b : Builder} {r : Request} {f : Rule} {sources : List Path}
    {d d' : Disk} {w : World} (hleaves : b.Leaves r f sources d d') (hsame : d'.Same w.disk)
    (hs : d.stat (r.sketchDir r.root) = .ok .directory) :
    ∃ w', b.assemble (b.resultBy r f d sources) w = .ok () w' ∧ d'.Same w'.disk := by
  have htarget : w.disk.target (r.sketchDir r.root) = d.target (r.sketchDir r.root) :=
    Disk.target_of_cwd (hsame.cwd.trans hleaves.confined.cwd) _
  have hs' : w.disk.stat (r.sketchDir r.root) = .ok .directory :=
    hsame.stat_eq_ok_iff.mpr (hleaves.confined.stat_directory_iff.mpr hs)
  have h0 : (w.disk.target (r.sketchDir r.root)).lost = 0 := by rw [target_sketchDir]
  have hclean : ∀ n, Text.endsWith n Sketch.outputSuffix = true →
      (w.disk.tree.get? ((w.disk.target (r.sketchDir r.root)).loc ++ [n])).isSome = true →
        n ∈ (b.resultBy r f d sources).outputs.map Path.name := by
    intro n hends hsome
    rw [names_resultBy]
    by_contra hnot
    rw [htarget, hsame.get, hleaves.others n hends hnot] at hsome
    cases hsome
  obtain ⟨x, hentry⟩ := hleaves.entry
  obtain ⟨w', hrun, hsame'⟩ : ∃ w', b.assemble (b.resultBy r f d sources) w = .ok () w' ∧
      w.disk.Same w'.disk :=
    assemble_again hs' h0 hclean (hsame.stat_eq_ok_iff.mpr hentry)
  exact ⟨w', hrun, hsame.trans hsame'⟩

/-- Sources that were not given are those that the source directory lists. -/
theorem list_foundSources {r : Request} {d : Disk} (hsources : r.sources = none)
    (hne : r.foundSources d ≠ []) :
    (r.preparedDisk d).list (sourceDir r.projectDir) sourceSuffix = .ok (r.foundSources d) ∧
      (r.preparedDisk d).stat (sourceDir r.projectDir) = .ok .directory := by
  cases hlist : (r.preparedDisk d).list (sourceDir r.projectDir) sourceSuffix with
  | error e =>
      refine absurd ?_ hne
      rw [Request.foundSources, hsources, hlist]
  | ok sources =>
      have hfound : r.foundSources d = sources := by rw [Request.foundSources, hsources, hlist]
      rw [hfound] at hne ⊢
      obtain ⟨s, hs⟩ := List.exists_mem_of_ne_nil _ hne
      exact ⟨rfl, Disk.stat_of_mem_list hlist hs⟩

/-- A source that was listed lies directly below the source directory. -/
theorem target_of_mem_foundSources {r : Request} {d : Disk} (hsources : r.sources = none)
    {s : Path} (hs : s ∈ r.foundSources d) :
    ∃ n, (r.preparedDisk d).target s =
      ⟨((r.preparedDisk d).target (sourceDir r.projectDir)).loc ++ [n], 0⟩ := by
  obtain ⟨hlist, -⟩ := list_foundSources hsources (List.ne_nil_of_mem hs)
  obtain ⟨-, -, n, hends, -, rfl⟩ := (Disk.mem_list_iff hlist).mp hs
  exact ⟨n, Disk.target_child (Text.ne_of_endsWith hends (by decide))
    (Text.ne_of_endsWith hends (by decide))⟩

/-- After a build by rule the same sources are found. -/
theorem foundSources_of_leaves {r : Request} {P : String → Prop} {d d' : Disk}
    (hconf : (r.preparedDisk d).Confined (d.target (r.sketchDir r.root)).loc P d')
    (hprep : r.preparedDisk d' = d') (hcwd : (r.preparedDisk d).cwd = d.cwd)
    (hne : r.foundSources d ≠ [])
    (hout : ∀ s ∈ r.foundSources d, ∀ n,
      (d.target s).loc ≠ (d.target (r.sketchDir r.root)).loc ++ [n]) :
    r.foundSources d' = r.foundSources d := by
  cases hsources : r.sources with
  | some sources => rw [Request.foundSources, Request.foundSources, hsources]
  | none =>
      obtain ⟨hlist, hstat⟩ := list_foundSources hsources hne
      have hdir : ((r.preparedDisk d).target (sourceDir r.projectDir)).loc ≠
          (d.target (r.sketchDir r.root)).loc := by
        -- else a source would lie in the sketch directory
        obtain ⟨s, hs⟩ := List.exists_mem_of_ne_nil _ hne
        obtain ⟨n, htarget⟩ := target_of_mem_foundSources hsources hs
        intro heq
        apply hout s hs n
        rw [← heq, ← Disk.target_of_cwd hcwd, htarget]
      rw [Request.foundSources, hsources, hprep, hconf.list_eq hstat hdir, hlist]

/-- **A second build** right after a successful one finds everything as it left it. It stops if the
translator is gone, and otherwise gives the same result; either way it changes nothing. -/
theorem build_again {b : Builder} {r : Request} {f : Rule} {w w' : World} {result : Result}
    (hcompile : r.compile = false)
    (hf : ∀ s ∈ r.foundSources w.disk, f.Governs w.tools (b.translation r s) s
      (Sketch.outputOf (r.sketchDir r.root) s))
    (hout : ∀ s ∈ r.foundSources w.disk, ∀ n,
      (w.disk.target s).loc ≠ (w.disk.target (r.sketchDir r.root)).loc ++ [n])
    (h : b.build r w = .ok result w') :
    (Tool.installed w'.disk w'.env b.translator.binary = true ∧
      ∃ w'', b.build r w' = .ok result w'' ∧ w'.disk.Same w''.disk) ∨
    (Tool.installed w'.disk w'.env b.translator.binary = false ∧
      ∃ w'', b.build r w' = .error (.build (.tool (.translatorNotInstalled
        b.translator.binary.toStr))) w'' ∧ w'.disk.Same w''.disk) := by
  obtain ⟨hresult, hleaves⟩ := build_by_rule hcompile hf hout h
  obtain ⟨_, _, _, hready, -, -, htranslate, -, -, htools, -⟩ := build_eq_ok hcompile h
  obtain ⟨ht, hb⟩ := isText_of_translateAll hready.found htranslate
  have hmade := hready.prepared
  have htarget : ∀ p, (r.preparedDisk w.disk).target p = w.disk.target p :=
    Disk.target_of_cwd hmade.cwd
  have htarget' : ∀ p, w'.disk.target p = (r.preparedDisk w.disk).target p :=
    Disk.target_of_cwd hleaves.confined.cwd
  have hs' : w'.disk.stat (r.sketchDir r.root) = .ok .directory :=
    hleaves.confined.stat_directory_iff.mpr hmade.stat
  have hmake : w'.disk.makePath (r.sketchDir r.root) = (none, w'.disk) :=
    Disk.makePath_of_stat hs'
  have hprep : r.preparedDisk w'.disk = w'.disk := by rw [Request.preparedDisk, hmake]
  have hfound : r.foundSources w'.disk = r.foundSources w.disk :=
    foundSources_of_leaves (htarget _ ▸ hleaves.confined) hprep hmade.cwd hready.found hout
  obtain ⟨w₁, hroom, ht₁, hd₁⟩ := makeRoom_of_hasRoom (w := w')
    ⟨hready.printable, hready.rooted, by rw [hmake]⟩
  rw [hprep] at hd₁
  have hrun₁ := bind_of_ok (f := fun root => b.findSources r >>= fun sources =>
    pure (root, sources)) hroom
  -- all but the translator is where the first build found it
  rcases requireTranslator_cases b w₁ with ⟨hin, hreq⟩ | ⟨hnot, e, hreq, he⟩
  · refine Or.inl ⟨by rw [← hd₁, ← ht₁.env, hin], ?_⟩
    rcases findSources_cases hready.printable (hd₁.trans hprep.symm) with
      ⟨-, w₂, hfind, hq₂⟩ | ⟨hnot, -⟩
    · rw [bind_of_ok hfind, hfound] at hrun₁
      have hd₂ : w₂.disk = w'.disk := hq₂.disk.trans hd₁
      have htools₂ : w₂.tools = w.tools := (ht₁.silent_trans hq₂.trail).tools.trans htools
      rw [← hd₂] at hleaves
      obtain ⟨done, w₃, htranslate₃, hdone, hsame₃⟩ := translateAll_of_leaves hleaves ht hb
        (by rwa [htools₂]) (by simpa only [htarget] using hout)
      obtain ⟨w₄, hassemble₄, hsame₄⟩ := assemble_of_leaves hleaves hsame₃ hmade.stat
      refine ⟨w₄, ?_, hd₂ ▸ hsame₄⟩
      rw [build_of_prepare hrun₁, bind_of_ok htranslate₃, hdone, ← hresult, Builder.finish,
        bind_of_ok (hresult ▸ hassemble₄), hcompile]
      rfl
    · refine absurd ⟨hin, ?_⟩ hnot
      rw [hfound]
      exact ⟨hready.found, hready.distinct⟩
  · refine Or.inr ⟨by rw [← hd₁, ← ht₁.env, hnot], w₁, ?_, by rw [hd₁]; exact .refl _⟩
    have hfind : b.findSources r w₁ = .error e w₁ := bind_of_error hreq
    rw [bind_of_error hfind] at hrun₁
    rw [← he ht]
    exact bind_of_error hrun₁

end Build

end SketchBuild
