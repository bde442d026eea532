import SketchBuild.Proofs.Build.Calls
import SketchBuild.Proofs.Sketch.Name

/-! # The compiler sees an exact sketch

The sketch is checked right before it is compiled, but between the check and the compiler the build
still makes the compiler's own directory. It lies beside the sketch directory, so nothing that was
checked changes: when the compiler starts, there are the entry point that was just written and the
outputs of this build, and no others, whatever was there before and whatever the translator did.

But the compiler runs in the sketch directory, while the words that it is given are the paths of the
build. Where they are relative, they lead from the sketch directory back into itself. -/

namespace SketchBuild

namespace Sketch

/-- A sketch directory as the compiler needs it: an identifier for a name, one entry point, which
is the generated one, and the output of each source and no other. -/
structure Exact (d : Disk) (dir : Path) (sources : List Path) : Prop where
  identifier : IsIdentifier dir.name
  entry : d.Holds dir entrySuffix [dir.name ++ entrySuffix]
  content : d.readFile (entryPoint dir) = .ok (Text.Utf8.encode stub)
  outputs : d.Holds dir outputSuffix (sources.map fun s => s.stem ++ outputSuffix)

/-- The outputs that the check accepts are those that it was given. -/
theorem Accepted.holds {d : Disk} {dir : Path} {expected : List Path}
    (h : Accepted d dir expected) : d.Holds dir outputSuffix (expected.map Path.name) := by
  obtain ⟨present, hl, hsub, hsup⟩ := h.outputs
  exact ⟨present, hl, fun n => ⟨fun hn => hsub hn, fun hn => hsup hn⟩⟩

/-- An entry point that is there is the only one that the check accepts. -/
theorem Accepted.holds_entry {d : Disk} {dir : Path} {expected : List Path} {e : Entry}
    (h : Accepted d dir expected) (hentry : d.stat (entryPoint dir) = .ok e) :
    d.Holds dir entrySuffix [dir.name ++ entrySuffix] := by
  obtain ⟨h0, hget⟩ :=
    Disk.get?_of_stat_child hentry (entryName_ne_dot dir) (entryName_ne_dotDot dir)
  have hs : d.stat dir = .ok .directory := Disk.isDirectory?_eq_true_iff.mp h.isDirectory
  obtain ⟨entry, hl, -⟩ := h.entry
  have hmem : entryPoint dir ∈ [entry] :=
    (Disk.mem_list_iff hl).mpr ⟨hs, h0, _, endsWith_entryName dir, by rw [hget]; rfl, rfl⟩
  obtain rfl := List.mem_singleton.mp hmem
  refine ⟨[entryPoint dir], hl, fun n => ?_⟩
  simp [entryPoint]

/-- An accepted sketch with the generated entry point is exact. -/
theorem Accepted.exact {d : Disk} {dir : Path} {sources : List Path} {x : Bool}
    (h : Accepted d dir (sources.map (outputOf dir))) (hname : IsIdentifier dir.name)
    (hentry : d.stat (entryPoint dir) = .ok (.file (Text.Utf8.encode stub) x)) :
    Exact d dir sources where
  identifier := hname
  entry := h.holds_entry hentry
  content := Disk.readFile_eq_ok_iff.mpr ⟨x, hentry⟩
  outputs := by
    have houtputs := h.holds
    rwa [List.map_map, show Path.name ∘ outputOf dir = fun s => s.stem ++ outputSuffix from
      funext fun s => Path.name_child dir _] at houtputs

/-- A sketch stays exact when a directory is made beside it. -/
theorem Exact.of_made {d d' : Disk} {root : Path} {name other : String} {sources : List Path}
    (h : Exact d (root.child name) sources) (hmade : d.Made (root.child other) d')
    (h1 : other ≠ ".") (h2 : other ≠ "..") : Exact d' (root.child name) sources := by
  have hname : IsIdentifier name := by simpa using h.identifier
  have hs : d.stat (root.child name) = .ok .directory := by
    obtain ⟨ps, hl, hmem⟩ := h.entry
    obtain ⟨p, hp, -⟩ := List.mem_map.mp ((hmem _).mpr List.mem_cons_self)
    exact Disk.stat_of_mem_list hl hp
  have htarget : d.target (root.child name) = ⟨(d.target root).loc ++ [name], 0⟩ :=
    Disk.target_child (hname.ne_dot rfl) (hname.ne_dot rfl)
  -- the new directory is no entry of the sketch directory
  have hbeside : ∀ n, d'.tree.get? ((d.target (root.child name)).loc ++ [n]) =
      d.tree.get? ((d.target (root.child name)).loc ++ [n]) := by
    intro n
    obtain ⟨-, hp, -⟩ := Disk.stat_eq_ok_iff.mp hs
    obtain ⟨hp, he, -⟩ := Disk.passable_child.mp hp
    apply hmade.get?_of_ne h1 h2 hp he
    rw [htarget, List.append_assoc]
    intro heq
    exact absurd (List.append_cancel_left heq) (by simp)
  have hholds : ∀ {suffix names}, d.Holds (root.child name) suffix names →
      d'.Holds (root.child name) suffix names := by
    intro suffix names hh
    have h0 : (d.target (root.child name)).lost = 0 := by rw [htarget]
    have hall := (Disk.holds_iff hs h0).mp hh
    have ht := Disk.target_of_cwd hmade.cwd (root.child name)
    refine (Disk.holds_iff (hmade.stat_eq_ok hs) (by rw [ht, h0])).mpr fun n => ?_
    rw [ht, hbeside]
    exact hall n
  refine ⟨h.identifier, hholds h.entry, ?_, hholds h.outputs⟩
  obtain ⟨x, hstat⟩ := Disk.readFile_eq_ok_iff.mp h.content
  exact Disk.readFile_eq_ok_iff.mpr ⟨x, hmade.stat_eq_ok hstat⟩

/-- An exact sketch at an absolute path is exact from every working directory. -/
theorem Exact.of_isAbsolute {d d' : Disk} {dir : Path} {sources : List Path}
    (h : Exact d dir sources) (habs : dir.isAbsolute = true) (htree : d'.tree = d.tree) :
    Exact d' dir sources := by
  have hlist : ∀ suffix, d'.list dir suffix = d.list dir suffix := by
    intro suffix
    simp [Disk.list, Disk.isDirectory?, Disk.ask, Disk.stat_of_isAbsolute habs htree, Disk.locate,
      Disk.follow, habs, htree]
  refine ⟨h.identifier, ?_, ?_, ?_⟩
  · rw [Disk.Holds, hlist]
    exact h.entry
  · rw [Disk.readFile, Disk.stat_of_isAbsolute (p := entryPoint dir) habs htree]
    exact h.content
  · rw [Disk.Holds, hlist]
    exact h.outputs

end Sketch

namespace Build

open SketchBuild.Action

/-! ## Beside the sketch directory -/

theorem assemble_eq_ok {b : Builder} {result : Result} {w w' : World}
    (h : b.assemble result w = .ok () w') :
    ∃ w₁, clearStale result.sketchDir result.outputs w = .ok () w₁ ∧
      w₁.disk.writeFile (Sketch.entryPoint result.sketchDir) (Text.Utf8.encode Sketch.stub) =
        .ok w'.disk := by
  obtain ⟨_, w₁, hclear, h₁⟩ := bind_eq_ok_iff.mp h
  obtain ⟨entry, w₂, hwrite, h₂⟩ := bind_eq_ok_iff.mp h₁
  obtain ⟨_, w₃, hchange, hpure⟩ := bind_eq_ok_iff.mp hwrite
  obtain ⟨d, hd, rfl⟩ := change_eq_ok_iff.mp hchange
  cases hpure
  refine ⟨w₁, hclear, ?_⟩
  rw [((shows_step b 4 _).quiet h₂).disk]
  exact hd

/-- A path leads to a directory, which is neither the sketch directory nor inside it. -/
structure Apart (d : Disk) (sketch : Place) (buildPath : Path) : Prop where
  isDirectory : d.isDirectory? buildPath = .ok true
  present : (d.target buildPath).lost = 0
  outside : ¬ sketch.loc <+: (d.target buildPath).loc

/-- What the paths `dir` and `buildPath` mean on a disk: the one leads to the sketch directory,
which is exact, and the other to a directory apart from it. -/
structure Sees (d : Disk) (sketch : Place) (dir buildPath : Path) (sources : List Path) :
    Prop where
  leads : d.target dir = sketch
  exact : Sketch.Exact d dir sources
  apart : Apart d sketch buildPath

/-- The directory for the compiler is made beside the sketch directory. -/
theorem apart_of_made {d d' : Disk} {root : Path} {name : String}
    (hname : Sketch.IsIdentifier name) (hmade : d.Made (root.child cacheName) d') :
    Apart d' (d'.target (root.child name)) (root.child cacheName) := by
  have hdir : d'.target (root.child name) = ⟨(d'.target root).loc ++ [name], 0⟩ :=
    Disk.target_child (hname.ne_dot rfl) (hname.ne_dot rfl)
  have hcache : d'.target (root.child cacheName) = ⟨(d'.target root).loc ++ [cacheName], 0⟩ :=
    Disk.target_child (by decide) (by decide)
  refine ⟨Disk.isDirectory?_eq_true_iff.mpr hmade.stat, by rw [hcache], ?_⟩
  rw [hdir, hcache, List.prefix_append_right_inj]
  intro hp
  exact hname.ne_dot (t := cacheName) rfl (List.cons_prefix_cons.mp hp).1

/-- Absolute paths mean the same from every working directory. -/
theorem Sees.of_isAbsolute {d d' : Disk} {sketch : Place} {dir buildPath : Path}
    {sources : List Path} (h : Sees d sketch dir buildPath sources)
    (hdir : dir.isAbsolute = true) (hbuild : buildPath.isAbsolute = true)
    (htree : d'.tree = d.tree) : Sees d' sketch dir buildPath sources := by
  refine ⟨?_, h.exact.of_isAbsolute hdir htree, ?_, ?_, ?_⟩
  · rw [Disk.target_of_isAbsolute hdir d d', h.leads]
  · rw [Disk.isDirectory?, Disk.ask, Disk.stat_of_isAbsolute hbuild htree]
    exact h.apart.isDirectory
  · rw [Disk.target_of_isAbsolute hbuild d d']
    exact h.apart.present
  · rw [Disk.target_of_isAbsolute hbuild d d']
    exact h.apart.outside

/-- From inside the sketch directory a relative path that never goes up stays there. -/
theorem not_apart_of_relative {d : Disk} {buildPath : Path} (hrel : buildPath.isAbsolute = false)
    (hup : ".." ∉ buildPath.parts) : ¬ Apart d d.cwd buildPath := by
  intro h
  apply h.outside
  rw [Disk.target, Disk.origin, hrel]
  exact Place.prefix_along d.cwd hup

/-- What was assembled and accepted is exact when the compiler's directory was made beside it. -/
theorem sees_of_assemble {b : Builder} {root : Path} {name : String} {sources : List Path}
    {result : Result} {w w₁ : World} {d : Disk} (hname : Sketch.IsIdentifier name)
    (hdir : result.sketchDir = root.child name)
    (hout : result.outputs = sources.map (Sketch.outputOf (root.child name)))
    (hassemble : b.assemble result w = .ok () w₁)
    (haccepted : Sketch.Accepted w₁.disk result.sketchDir result.outputs)
    (hmake : w₁.disk.makePath (root.child cacheName) = (none, d)) :
    Sees d (d.target (root.child name)) (root.child name) (root.child cacheName) sources := by
  have hmade := Disk.makePath_made hmake
  obtain ⟨w₀, -, hwrite⟩ := assemble_eq_ok hassemble
  rw [hdir] at hwrite haccepted
  rw [hout] at haccepted
  have hexact : Sketch.Exact w₁.disk (root.child name) sources :=
    haccepted.exact (by simpa using hname) (Disk.stat_of_writeFile hwrite)
  exact ⟨rfl, hexact.of_made hmade (by decide) (by decide), apart_of_made hname hmade⟩

/-- A program that runs in the sketch directory sees it from there. -/
theorem Sees.cwd_seenFrom {d : Disk} {sketch : Place} {dir buildPath : Path} {sources : List Path}
    (h : Sees d sketch dir buildPath sources) : (d.seenFrom sketch).cwd = sketch := by
  obtain ⟨ps, hl, hmem⟩ := h.exact.entry
  obtain ⟨p, hp, -⟩ := List.mem_map.mp ((hmem _).mpr List.mem_cons_self)
  obtain ⟨-, hpass, hdir⟩ := Disk.stat_eq_ok_iff.mp (Disk.stat_of_mem_list hl hp)
  refine Place.settle_eq_self ?_
  rw [← h.leads]
  exact Disk.isDirectory_along (Disk.isDirectory_origin d dir) hpass hdir

/-- From there, only an absolute path that never goes up leads to the build directory. -/
theorem Sees.isAbsolute_of_seen {d : Disk} {sketch : Place} {dir root : Path}
    {sources : List Path} (h : Sees d sketch dir (root.child cacheName) sources)
    (hseen : Sees (d.seenFrom sketch) sketch dir (root.child cacheName) sources)
    (hup : ".." ∉ root.parts) : root.isAbsolute = true := by
  cases hrel : root.isAbsolute with
  | true => rfl
  | false =>
      have hcache : (root.child cacheName).isAbsolute = false := hrel
      have hnot := not_apart_of_relative (d := d.seenFrom sketch) hcache
        (by simpa [Path.child, cacheName] using hup)
      rw [h.cwd_seenFrom] at hnot
      exact absurd hseen.apart hnot

/-- **What the compiler sees.** Every program that a build starts translates one of its sources, or
is the compiler: then the board is in the catalog and its fully-qualified name is the one that the
compiler is given, and the paths of the build lead to an exact sketch and a build directory apart
from it. The compiler reads them from the sketch directory, in which it runs. If the output
directory is absolute, it sees the same; if it is relative, and does not go up, the build directory
that it is given is one inside the sketch. Nothing is assumed of the disk before, of the request or
of the tools. -/
theorem Builder.compiler_sees_exact_sketch (b : Builder) (r : Request) (w : World) :
    ∃ ss, ((b.build r).after w).past = w.past ++ ss ∧ ∀ s ∈ ss,
      (∃ source ∈ r.foundSources w.disk, s.invocation = b.translation r source) ∨
      ∃ board, Board.find? (b.boardFor r).display = some board ∧
        s.invocation = b.compilation r board ∧
        let sketch := s.disk.target (r.sketchDir r.root)
        let sees d := Sees d sketch (r.sketchDir r.root) (r.root.child cacheName)
          (r.foundSources w.disk)
        sees s.disk ∧ (r.root.isAbsolute = true → sees (s.disk.seenFrom sketch)) ∧
          (".." ∉ r.root.parts → sees (s.disk.seenFrom sketch) → r.root.isAbsolute = true) := by
  by_cases hstarts : b.Starts r w
  case neg =>
    obtain ⟨f, w₁, herr, ht⟩ := build_of_not_starts hstarts
    refine ⟨[], ?_, by simp⟩
    rw [after_of_error herr, ht.past]
  rcases prepare_cases b r w with ⟨w₁, -, hprep, ht₁, -⟩ | ⟨hnot, -⟩
  case inr => exact absurd hstarts.1 hnot
  have hbuild := build_of_prepare hprep
  obtain ⟨runs, w₂, ht₂, hruns, hcases⟩ := translateAll_runs b.translator (b.boardFor r)
    (r.sketchDir r.root) r.wantsSourceMap (r.foundSources w.disk) w₁
  rcases hcases with ⟨done, hok, hout⟩ | ⟨f, herr⟩
  · rw [bind_of_ok hok] at hbuild
    obtain ⟨tail, ht₃, htail⟩ := finish_trail b r r.root
      (.ofTranslation (r.sketchDir r.root) (b.boardFor r) done) w₂
    rw [← after_congr hbuild] at ht₃
    refine ⟨runs ++ tail, (ht₁.silent_trans (ht₂.trans ht₃)).past, ?_⟩
    intro s hs
    rcases List.mem_append.mp hs with hs | hs
    · exact Or.inl (hruns s hs)
    · rcases htail with rfl | ⟨-, board, w₄, d, hboard, hassemble, haccepted, hmake, rfl⟩
      · cases hs
      · obtain rfl := List.mem_singleton.mp hs
        have hsees := sees_of_assemble
          (Sketch.isIdentifier_nameFor r.manifest.name.shown) rfl hout hassemble haccepted hmake
        replace hboard : Board.ofStr? (b.boardFor r).toStr = some board := hboard
        rw [Json.toStr_of_isWord (Json.isWord_of_isText hstarts.2)] at hboard
        refine Or.inr ⟨board, hboard, rfl, hsees, fun habs => ?_, fun hup hseen => ?_⟩
        · exact hsees.of_isAbsolute habs habs rfl
        · exact hsees.isAbsolute_of_seen hseen hup
  · rw [bind_of_error herr] at hbuild
    refine ⟨runs, ?_, fun s hs => Or.inl (hruns s hs)⟩
    rw [after_of_error hbuild]
    exact (ht₁.silent_trans ht₂).past

/-- With a relative output directory the compiler is given the name of a build directory that is not
there. -/
theorem Builder.relative_output_misread :
    let r := { Sample.request with outputDir := some ⟨.relative, ["out"]⟩, compile := true }
    let w' := ((Builder.ofSettings Sample.settings false).build r).after (Sample.world "")
    ∃ s ∈ w'.past, s.invocation.argv = ["arduino-cli", "compile", "--fqbn", "arduino:avr:uno",
        "--build-path", "out/.cache", "--warnings", "all", "out/blink"] ∧
      s.invocation.cwd = some "out/blink" ∧
      (s.disk.seenFrom (s.disk.target ⟨.relative, ["out", "blink"]⟩)).isDirectory?
        ⟨.relative, ["out", ".cache"]⟩ = .ok false := by
  decide +kernel

end Build

end SketchBuild
