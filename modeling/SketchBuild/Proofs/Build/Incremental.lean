import SketchBuild.Proofs.Build.Rebuild
import SketchBuild.Proofs.Disk.Outside

/-! # Incremental builds

A build by rule, told from two disks that agree outside the sketch directory, finds the same sources
with the same contents. So it leaves the same sketch and gives the same result, whatever stood in
the sketch directory before: nothing, or what earlier builds had left there. -/

namespace SketchBuild.Build

open SketchBuild.Action
open Translator (Rule)

/-! ## One sketch on two disks -/

/-- The outputs in the sketch directory have the same names and contents on both disks, and the
entry point has the same content. -/
def Request.SameSketch (r : Request) (d d' : Disk) : Prop :=
  ∀ n, (Text.endsWith n Sketch.outputSuffix = true ∨
      n = (r.sketchDir r.root).name ++ Sketch.entrySuffix) →
    (d'.tree.get? ((d'.target (r.sketchDir r.root)).loc ++ [n])).map Entry.content? =
      (d.tree.get? ((d.target (r.sketchDir r.root)).loc ++ [n])).map Entry.content?

section Leaves

variable {b : Builder} {r : Request} {f : Rule} {sources : List Path} {d d' e e' : Disk}

/-- The sources of a successful build by rule could be read. -/
theorem isSome_content?_of_leaves {tools : Tool.Tools} (h : b.Leaves r f sources d d')
    (hf : ∀ s ∈ sources, f.Governs tools (b.translation r s) s
      (Sketch.outputOf (r.sketchDir r.root) s)) {s : Path} (hs : s ∈ sources) :
    (d.content? s).isSome = true := by
  cases hc : d.content? s with
  | some c => rfl
  | none =>
      have hcode := (h.outputs s hs).1
      rw [Builder.product, hc] at hcode
      exact absurd hcode (hf s hs).unread

/-- What a path into the sketch directory leads to, told by the tree. -/
theorem content?_of_stat {dir : Path} {n : String} {c : List UInt8} {x : Bool}
    (h : d.stat (dir.child n) = .ok (.file c x)) {ending : String}
    (hn : Text.endsWith n ending = true) (hlen : 2 < ending.length) :
    (d.tree.get? ((d.target dir).loc ++ [n])).map Entry.content? = some (some c) := by
  have h1 : n ≠ "." := Text.ne_of_endsWith hn (Nat.lt_of_succ_lt hlen)
  have h2 : n ≠ ".." := Text.ne_of_endsWith hn hlen
  rw [(Disk.get?_of_stat_child h h1 h2).2]
  rfl

/-- Builds by rule of the same sources with the same contents leave the same sketch. -/
theorem sameSketch_of_leaves (h : b.Leaves r f sources d d') (h' : b.Leaves r f sources e e')
    (hproduct : ∀ s ∈ sources, b.product r f e s = b.product r f d s) : r.SameSketch d' e' := by
  intro n hn
  by_cases hmem : n ∈ sources.map outputName
  · obtain ⟨s, hs, rfl⟩ := List.mem_map.mp hmem
    obtain ⟨-, x, hstat⟩ := h.outputs s hs
    obtain ⟨-, x', hstat'⟩ := h'.outputs s hs
    rw [hproduct s hs] at hstat'
    exact (content?_of_stat hstat' (endsWith_outputName s) (by decide)).trans
      (content?_of_stat hstat (endsWith_outputName s) (by decide)).symm
  · rcases hn with hends | rfl
    · rw [Disk.target_of_cwd h.confined.cwd, Disk.target_of_cwd h'.confined.cwd,
        h.others n hends hmem, h'.others n hends hmem]
    · obtain ⟨x, hstat⟩ := h.entry
      obtain ⟨x', hstat'⟩ := h'.entry
      exact (content?_of_stat hstat' (Sketch.endsWith_entryName _) (by decide)).trans
        (content?_of_stat hstat (Sketch.endsWith_entryName _) (by decide)).symm

end Leaves

/-! ## What both builds find -/

section Found

variable {b : Builder} {r : Request} {w v : World}

/-- On both disks the sketch directory is there when it was made. -/
theorem get?_sketchDir {d d' : Disk} (h : d.Made (r.sketchDir r.root) d') :
    d'.tree.get? (d.target (r.sketchDir r.root)).loc = some .directory := by
  rw [← Disk.target_of_cwd h.cwd]
  exact Disk.get?_of_stat h.stat (by rw [target_sketchDir])

/-- The same sources are found on both disks. -/
theorem foundSources_of_sameOutside (hw : b.Ready r w) (hv : b.Ready r v)
    (hsame : w.disk.SameOutside (w.disk.target (r.sketchDir r.root)).loc v.disk)
    (hout : ∀ s ∈ r.foundSources w.disk,
      ¬ (w.disk.target (r.sketchDir r.root)).loc <+: (w.disk.target s).loc) :
    r.foundSources v.disk = r.foundSources w.disk := by
  cases hsources : r.sources with
  | some sources => rw [Request.foundSources, Request.foundSources, hsources]
  | none =>
      have hprep := hsame.made hw.prepared hv.prepared
      obtain ⟨hlist, hstat⟩ := list_foundSources hsources hw.found
      obtain ⟨hlist', hstat'⟩ := list_foundSources hsources hv.found
      have hloc : (r.preparedDisk v.disk).tree.get? (w.disk.target (r.sketchDir r.root)).loc =
          (r.preparedDisk w.disk).tree.get? (w.disk.target (r.sketchDir r.root)).loc := by
        rw [get?_sketchDir hw.prepared, ← Disk.target_of_cwd hsame.cwd,
          get?_sketchDir hv.prepared]
      refine hprep.list_eq hloc ?_ hstat hstat' hlist hlist'
      -- the sources lie outside, so the directory above them does
      obtain ⟨s, hs⟩ := List.exists_mem_of_ne_nil _ hw.found
      obtain ⟨n, htarget⟩ := target_of_mem_foundSources hsources hs
      intro hpre
      apply hout s hs
      rw [← Disk.target_of_cwd hw.prepared.cwd s, htarget]
      exact hpre.trans (List.prefix_append _ _)

end Found

/-! ## The sample project, built by rule -/

namespace Sample

/-- The rule of the translator that copies. -/
def copy : Rule := fun _ content =>
  match content with
  | some c => ⟨0, [], c⟩
  | none => ⟨1, [], []⟩

theorem governs_copy {bad : String} {i : Tool.Invocation} {source output : Path}
    (hbad : i.argv.getD 1 "" ≠ bad) (hsource : .ofString (i.argv.getD 1 "") = source)
    (houtput : .ofString (i.argv.getD 2 "") = output) :
    copy.Governs (tools bad) i source output where
  unread := Int.one_ne_zero
  written past d d' h := by
    rw [tools, if_neg hbad, hsource, houtput]
    cases hread : d.readFile source with
    | error e =>
        simp only [Disk.content?, hread, Except.toOption, copy]
        exact ⟨_, _, rfl, rfl, fun h => absurd h Int.one_ne_zero⟩
    | ok c =>
        simp only [Disk.content?, hread, Except.toOption, copy] at h ⊢
        simp only [h]
        exact ⟨_, _, rfl, rfl, fun _ => trivial⟩
  unwritten past d e h := by
    rw [tools, if_neg hbad, hsource, houtput]
    cases hread : d.readFile source with
    | error e => rfl
    | ok c =>
        simp only [Disk.content?, hread, Except.toOption, copy] at h ⊢
        simp only [h]
        rfl

/-- The sketch directory of the project. -/
def sketchLoc : Location := ["p", "build", "blink"]

/-- The project with an output directory in which nothing was built yet. -/
def cleanDisk : Disk := ⟨.ofList (entries ++ [(["p", "build"], .directory)]), ⟨[], 0⟩, rfl⟩

/-- The project with files `names` in its sketch directory. -/
def usedDisk (names : List String) : Disk :=
  names.foldl (fun d n => d.insert (sketchLoc ++ [n]) (.file [0] true))
    (cleanDisk.insert sketchLoc .directory)

theorem sameOutside_usedDisk (names : List String) :
    cleanDisk.SameOutside sketchLoc (usedDisk names) := by
  have hfold : ∀ (names : List String) (d : Disk), cleanDisk.SameOutside sketchLoc d →
      cleanDisk.SameOutside sketchLoc
        (names.foldl (fun d n => d.insert (sketchLoc ++ [n]) (.file [0] true)) d) := by
    intro names
    induction names with
    | nil => exact fun d h => h
    | cons n names ih => exact fun d h => ih _ (h.insert (List.prefix_append _ _) _)
  exact hfold names _ ((Disk.SameOutside.refl _ _).insert (List.prefix_refl _) _)

/-- The builder that runs the translator at `core`. -/
def builder (core : String) : Builder := .ofSettings { coreBinary := .text core } false

/-- The world in which every source of the project translates. -/
def worldOn (disk : Disk) : World := { world "" with disk }

theorem governs_sources (core : String) {sources : List Path}
    (h : ∀ s ∈ sources,
      let argv := ((builder core).translation request s).argv
      argv.getD 1 "" ≠ "" ∧ .ofString (argv.getD 1 "") = s ∧
        .ofString (argv.getD 2 "") = Sketch.outputOf (request.sketchDir request.root) s) :
    ∀ s ∈ sources, copy.Governs (tools "") ((builder core).translation request s) s
      (Sketch.outputOf (request.sketchDir request.root) s) := by
  intro s hs
  obtain ⟨hbad, hsource, houtput⟩ := h s hs
  exact governs_copy hbad hsource houtput

end Sample

/-! ## The two builds -/

/-- **An incremental build equals a clean build**, if the translator works by rule and the sources
lie outside the sketch directory. A build from any disk that differs only in the sketch directory,
if it succeeds too, gives the same result and leaves the same sketch. Right after a build, another
one gives the same result and changes nothing, unless the first has cleared away the translator
itself, which stood in the sketch directory under the name of an output: then the second misses it,
and changes nothing either. -/
theorem Builder.incremental_eq_clean {b : Builder} {r : Request} {f : Rule} {w w' : World}
    {result : Result} (hcompile : r.compile = false)
    (hf : ∀ s ∈ r.foundSources w.disk, f.Governs w.tools (b.translation r s) s
      (Sketch.outputOf (r.sketchDir r.root) s))
    (hout : ∀ s ∈ r.foundSources w.disk,
      ¬ (w.disk.target (r.sketchDir r.root)).loc <+: (w.disk.target s).loc)
    (h : b.build r w = .ok result w') :
    (∀ v v' result', v.tools = w.tools →
      w.disk.SameOutside (w.disk.target (r.sketchDir r.root)).loc v.disk →
      b.build r v = .ok result' v' → result' = result ∧ r.SameSketch w'.disk v'.disk) ∧
    ((Tool.installed w'.disk w'.env b.translator.binary = true ∧
        ∃ w'', b.build r w' = .ok result w'' ∧ w'.disk.Same w''.disk) ∨
      (Tool.installed w'.disk w'.env b.translator.binary = false ∧
        ∃ w'', b.build r w' = .error (.build (.tool (.translatorNotInstalled
          b.translator.binary.toStr))) w'' ∧ w'.disk.Same w''.disk)) := by
  have hbelow : ∀ s ∈ r.foundSources w.disk, ∀ n,
      (w.disk.target s).loc ≠ (w.disk.target (r.sketchDir r.root)).loc ++ [n] := by
    intro s hs n heq
    exact hout s hs (heq ▸ List.prefix_append _ _)
  refine ⟨fun v v' result' htools hsame h' => ?_, build_again hcompile hf hbelow h⟩
  obtain ⟨_, _, _, hw, -⟩ := build_eq_ok hcompile h
  obtain ⟨_, _, _, hv, -⟩ := build_eq_ok hcompile h'
  have hfound := foundSources_of_sameOutside hw hv hsame hout
  have htarget : ∀ p, v.disk.target p = w.disk.target p := Disk.target_of_cwd hsame.cwd
  obtain ⟨hresult, hleaves⟩ := build_by_rule hcompile hf hbelow h
  obtain ⟨hresult', hleaves'⟩ := build_by_rule (f := f) hcompile
    (by rwa [hfound, htools]) (by simpa only [hfound, htarget] using hbelow) h'
  rw [hfound] at hresult' hleaves'
  -- each source could be read on both disks, and it lies where they agree
  have hproduct : ∀ s ∈ r.foundSources w.disk,
      b.product r f (r.preparedDisk v.disk) s = b.product r f (r.preparedDisk w.disk) s := by
    intro s hs
    have hprep := hsame.made hw.prepared hv.prepared
    rw [Builder.product, Builder.product, hprep.content?_eq _
      (isSome_content?_of_leaves hleaves hf hs) (isSome_content?_of_leaves hleaves' hf hs)]
    rw [Disk.target_of_cwd hw.prepared.cwd]
    exact hout s hs
  refine ⟨?_, sameSketch_of_leaves hleaves hleaves' hproduct⟩
  rw [hresult, hresult', Builder.resultBy, Builder.resultBy]
  refine congrArg (Result.ofTranslation _ _) (List.map_congr_left fun s hs => ?_)
  rw [hproduct s hs]

/-- Leftovers in the sketch directory make no difference to the sample project, and neither does a
build of it. -/
theorem Builder.incremental_eq_clean_sample :
    let b := Sample.builder "/core"
    let w := Sample.worldOn Sample.cleanDisk
    let v := Sample.worldOn (Sample.usedDisk ["old.cpp", "a.cpp", "blink.ino", "notes"])
    ∃ result w' v' w'', b.build Sample.request w = .ok result w' ∧
      b.build Sample.request v = .ok result v' ∧ Sample.request.SameSketch w'.disk v'.disk ∧
      b.build Sample.request w' = .ok result w'' ∧ w'.disk.Same w''.disk := by
  intro b w v
  obtain ⟨result, hr⟩ : ∃ result, (b.build Sample.request).value? w = some result :=
    Option.isSome_iff_exists.mp (by decide +kernel)
  obtain ⟨result', hr'⟩ : ∃ result', (b.build Sample.request).value? v = some result' :=
    Option.isSome_iff_exists.mp (by decide +kernel)
  have h := value?_eq_some_iff.mp hr
  have h' := value?_eq_some_iff.mp hr'
  obtain ⟨hall, hagain⟩ := Builder.incremental_eq_clean rfl
    (Sample.governs_sources _ (by decide +kernel)) (by decide +kernel) h
  obtain ⟨rfl, hsketch⟩ := hall v _ result' rfl (Sample.sameOutside_usedDisk _) h'
  have hin : Tool.installed ((b.build Sample.request).after w).disk
      ((b.build Sample.request).after w).env b.translator.binary = true := by
    decide +kernel
  rcases hagain with ⟨-, w'', h'', hsame⟩ | ⟨hnot, -⟩
  · exact ⟨_, _, _, w'', h, h', hsketch, h'', hsame⟩
  · cases hin.symm.trans hnot

/-- A translator that stands in the sketch directory under the name of an output is cleared away by
the first build, so the second stops. -/
theorem Builder.second_build_misses_translator :
    let b := Sample.builder "/p/build/blink/core.cpp"
    let w := Sample.worldOn (Sample.usedDisk ["core.cpp"])
    (∀ s ∈ Sample.request.foundSources w.disk,
        Sample.copy.Governs w.tools (b.translation Sample.request s) s
          (Sketch.outputOf (Sample.request.sketchDir Sample.request.root) s) ∧
        ¬ Sample.sketchLoc <+: (w.disk.target s).loc) ∧
      ∃ result w', b.build Sample.request w = .ok result w' ∧
        ∃ f w'', b.build Sample.request w' = .error f w'' := by
  intro b w
  obtain ⟨result, hr⟩ : ∃ result, (b.build Sample.request).value? w = some result :=
    Option.isSome_iff_exists.mp (by decide +kernel)
  have hr' : (b.build Sample.request).value? ((b.build Sample.request).after w) = none := by
    decide +kernel
  obtain ⟨f, h'⟩ := value?_eq_none_iff.mp hr'
  have hf : ∀ s ∈ Sample.request.foundSources w.disk,
      Sample.copy.Governs w.tools (b.translation Sample.request s) s
        (Sketch.outputOf (Sample.request.sketchDir Sample.request.root) s) :=
    Sample.governs_sources _ (by decide +kernel)
  have hout : ∀ s ∈ Sample.request.foundSources w.disk,
      ¬ Sample.sketchLoc <+: (w.disk.target s).loc := by
    decide +kernel
  exact ⟨fun s hs => ⟨hf s hs, hout s hs⟩, result, _, value?_eq_some_iff.mp hr, f, _, h'⟩

end SketchBuild.Build
