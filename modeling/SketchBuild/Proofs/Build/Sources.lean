import SketchBuild.Proofs.Build.Assembly

/-! # Sources and their outputs

All outputs of a build stand in one directory, each named for the stem of its source. Two sources of
the same stem would overwrite each other's output, so they are refused before the first of them is
translated. `discoverSources_protects_outputs` says what the search gives for every request: the
sources as they are, if there are any and their stems are all different, and else the fault. -/

namespace SketchBuild

open SketchBuild.Action

/-! ## What a listing holds -/

namespace Disk

/-- The names of a directory's entries that end in `suffix`, in order. What is not a directory has
none. -/
structure Listed (d : Disk) (dir : Path) (suffix : String) (names : List String) : Prop where
  ordered : names.Pairwise (· ≤ ·)
  mem_iff : ∀ n, n ∈ names ↔ Text.endsWith n suffix = true ∧ d.stat dir = .ok .directory ∧
    (d.target dir).lost = 0 ∧ d.HasEntry dir n
  once : names.Nodup

theorem listed_of_stat {d : Disk} {dir : Path} (h : d.stat dir = .ok .directory)
    (suffix : String) :
    d.Listed dir suffix
      (((d.target dir).childNames d.tree).filter (Text.endsWith · suffix)) := by
  rw [Place.childNames]
  split
  · next h0 =>
      refine ⟨(Tree.pairwise_childNames _ _).filter _, fun n => ?_,
        (Tree.nodup_childNames _ _).filter _⟩
      rw [List.mem_filter, ← hasEntry_iff rfl]
      constructor
      · rintro ⟨hn, hends⟩
        exact ⟨hends, h, h0, hn⟩
      · rintro ⟨hends, -, -, hn⟩
        exact ⟨hn, hends⟩
  · next h0 => exact ⟨.nil, by simp [h0], .nil⟩

/-- A directory is listed, unless its path is too long to be looked at. -/
theorem list_cases (d : Disk) (dir : Path) (suffix : String) :
    (d.locate dir = .error .nameTooLong ∧
      d.list dir suffix = .error (.on .nameTooLong dir)) ∨
    (d.locate dir ≠ .error .nameTooLong ∧ ∃ names, d.Listed dir suffix names ∧
      d.list dir suffix = .ok (names.map dir.child)) := by
  by_cases hlong : d.locate dir = .error .nameTooLong
  · exact Or.inl ⟨hlong, list_eq_error_iff.mpr ⟨hlong, rfl⟩⟩
  · refine Or.inr ⟨hlong, ?_⟩
    by_cases hs : d.stat dir = .ok .directory
    · exact ⟨_, listed_of_stat hs suffix, list_of_stat hs suffix⟩
    · cases hl : d.list dir suffix with
      | error e => exact absurd (list_eq_error_iff.mp hl).1 hlong
      | ok ps =>
          have hnil : ps = [] := by
            rw [List.eq_nil_iff_forall_not_mem]
            exact fun p hp => hs (stat_of_mem_list hl hp)
          exact ⟨[], ⟨.nil, by simp [hs], .nil⟩, by rw [hnil, List.map_nil]⟩

end Disk

namespace Build

/-! ## The first clash -/

/-- `second` is the first source whose stem occurs before it, and `first` is the first source of
that stem. -/
structure FirstClash (sources : List Path) (first second : Path) : Prop where
  stem_eq : first.stem = second.stem
  split : ∃ before between after,
    sources = (before ++ first :: between) ++ second :: after ∧
    ((before ++ first :: between).map Path.stem).Nodup ∧ ∀ s ∈ before, s.stem ≠ second.stem

/-- What is reported comes right after sources whose stems are all different, those seen before
included. -/
theorem clash?_eq_some {seen sources : List Path} {first second : Path}
    (hseen : (seen.map Path.stem).Nodup) (h : clash? seen sources = some (first, second)) :
    ∃ more after, sources = more ++ second :: after ∧ ((seen ++ more).map Path.stem).Nodup ∧
      (seen ++ more).find? (fun other => other.stem == second.stem) = some first := by
  induction sources generalizing seen with
  | nil => cases h
  | cons s rest ih =>
      rw [clash?] at h
      cases hf : seen.find? fun other => other.stem == s.stem with
      | some other =>
          rw [hf] at h
          cases h
          exact ⟨[], rest, rfl, by rwa [List.append_nil], by rwa [List.append_nil]⟩
      | none =>
          rw [hf] at h
          -- the source joins those seen, and its stem is none of theirs
          have hnew : ((seen ++ [s]).map Path.stem).Nodup := by
            rw [List.map_append, List.map_cons, List.map_nil, List.nodup_append_comm]
            refine List.nodup_cons.mpr ⟨fun hm => ?_, hseen⟩
            obtain ⟨other, hmem, heq⟩ := List.mem_map.mp hm
            exact List.find?_eq_none.mp hf other hmem (beq_iff_eq.mpr heq)
          obtain ⟨more, after, rfl, hnd, hfind⟩ := ih hnew h
          rw [List.append_assoc, List.singleton_append] at hnd hfind
          exact ⟨s :: more, after, rfl, hnd, hfind⟩

theorem firstClash_of_clash? {sources : List Path} {first second : Path}
    (h : clash? [] sources = some (first, second)) : FirstClash sources first second := by
  have hseen : (([] : List Path).map Path.stem).Nodup := List.nodup_nil
  obtain ⟨more, after, rfl, hnd, hfind⟩ := clash?_eq_some hseen h
  rw [List.nil_append] at hnd hfind
  obtain ⟨heq, before, between, rfl, hbefore⟩ := List.find?_eq_some_iff_append.mp hfind
  exact ⟨beq_iff_eq.mp heq, before, between, after, rfl, hnd, fun s hs => by
    simpa using hbefore s hs⟩

/-! ## The search -/

/-- The sources that a build may have, and where they were looked for: those given, in their order,
or those in the source directory, in the order of their names. -/
inductive SourceList (d : Disk) (projectDir : Path) :
    Option (List Path) → List Path → String → Prop
  | given (sources : List Path) :
      SourceList d projectDir (some sources) sources "the build request"
  | listed {names : List String}
      (short : d.locate (sourceDir projectDir) ≠ .error .nameTooLong)
      (all : d.Listed (sourceDir projectDir) sourceSuffix names) :
      SourceList d projectDir none (names.map (sourceDir projectDir).child)
        (sourceDir projectDir).toString

/-- The search accepts the sources there are, unless the source directory cannot be looked at. -/
theorem discoverSources_apply (projectDir : Path) (given : Option (List Path)) (w : World) :
    (given = none ∧ w.disk.locate (sourceDir projectDir) = .error .nameTooLong ∧
      discoverSources projectDir given w =
        .error (.file (.on .nameTooLong (sourceDir projectDir))) w) ∨
    ∃ sources place, SourceList w.disk projectDir given sources place ∧
      discoverSources projectDir given w =
        Action.ofExcept .build (acceptSources sources place) w := by
  cases given with
  | some sources => exact Or.inr ⟨sources, _, .given sources, rfl⟩
  | none =>
      rcases Disk.list_cases w.disk (sourceDir projectDir) sourceSuffix with
        ⟨hlong, hlist⟩ | ⟨hshort, names, hnames, hlist⟩
      · exact Or.inl ⟨rfl, hlong, bind_of_error (ask_of_error hlist)⟩
      · exact Or.inr ⟨_, _, .listed hshort hnames, bind_of_ok (ask_of_ok hlist)⟩

theorem acceptSources_of_clash {sources : List Path} (place : String) (hne : sources ≠ [])
    (hnd : ¬ (sources.map Path.stem).Nodup) :
    ∃ first second, FirstClash sources first second ∧
      acceptSources sources place = .error (.clash first second) := by
  cases hc : clash? [] sources with
  | none => exact absurd (clash?_eq_none_iff.mp hc).2 hnd
  | some pair =>
      refine ⟨pair.1, pair.2, firstClash_of_clash? hc, ?_⟩
      rw [acceptSources, if_neg (by simpa using hne), hc]

/-! ## Outputs -/

/-- Paths that are entries of one directory, all different, which lead to different places on every
disk. -/
structure Separate (dir : Path) (ps : List Path) : Prop where
  nodup : ps.Nodup
  parent : ∀ p ∈ ps, p.parent = dir
  places : ∀ d : Disk, (ps.map d.target).Nodup
  inside : ∀ d : Disk, ∀ p ∈ ps, ∃ n, d.target p = ⟨(d.target dir).loc ++ [n], 0⟩

theorem nodup_map_of_stem {α : Type} {f : Path → α} {sources : List Path}
    (hf : ∀ s s', f s = f s' → s.stem = s'.stem) (h : (sources.map Path.stem).Nodup) :
    (sources.map f).Nodup := by
  refine h.of_map.map_on fun s hs s' hs' heq => ?_
  exact List.inj_on_of_nodup_map h hs hs' (hf s s' heq)

/-- Sources of different stems have separate outputs. -/
theorem separate_outputs {sources : List Path} (h : (sources.map Path.stem).Nodup) (dir : Path) :
    Separate dir (sources.map (Sketch.outputOf dir)) where
  nodup := by
    refine nodup_map_of_stem (fun s s' heq => outputName_inj ?_) h
    have hname := congrArg Path.name heq
    rwa [Sketch.outputOf, Sketch.outputOf, Path.name_child, Path.name_child] at hname
  parent := by
    intro p hp
    obtain ⟨s, -, rfl⟩ := List.mem_map.mp hp
    rw [Sketch.outputOf, Path.child, Path.parent, List.dropLast_concat]
  places := by
    intro d
    rw [List.map_map]
    refine nodup_map_of_stem (fun s s' heq => outputName_inj ?_) h
    rw [Function.comp, Function.comp, target_outputOf, target_outputOf, Place.mk.injEq] at heq
    exact List.singleton_inj.mp (List.append_cancel_left heq.1)
  inside := by
    intro d p hp
    obtain ⟨s, -, rfl⟩ := List.mem_map.mp hp
    exact ⟨outputName s, target_outputOf d dir s⟩

/-- A build that succeeds has the outputs it translated, compiled or not. -/
theorem finish_eq_ok {b : Builder} {r : Request} {root : Path} {result result' : Result}
    {w w' : World} (h : b.finish r root result w = .ok result' w') :
    result'.outputs = result.outputs ∧ result'.sketchDir = result.sketchDir := by
  obtain ⟨_, w₁, -, h⟩ := bind_eq_ok_iff.mp h
  split at h
  · rcases compile_cases b root result w₁ with ⟨f, v, herr, -⟩ |
      ⟨board, sketch, v, -, -, -, -, -, ⟨f, f', v', -, herr⟩ | ⟨firmware, v', v'', -, hok⟩⟩
    · cases herr.symm.trans h
    · cases herr.symm.trans h
    · cases hok.symm.trans h
      exact ⟨rfl, rfl⟩
  · cases h
    exact ⟨rfl, rfl⟩

theorem separate_of_build {b : Builder} {r : Request} {result : Result} {w w' : World}
    (h : b.build r w = .ok result w') : Separate result.sketchDir result.outputs := by
  rcases prepare_cases b r w with ⟨w₁, hready, hprep, -, -⟩ | ⟨-, f, v, hprep, -⟩
  · rw [build_of_prepare hprep] at h
    obtain ⟨done, w₂, htranslate, hfinish⟩ := bind_eq_ok_iff.mp h
    obtain ⟨_, _, -, -, ⟨done', hok, houtputs⟩ | ⟨f, herr⟩⟩ :=
      translateAll_runs b.translator (b.boardFor r) (r.sketchDir r.root) r.wantsSourceMap
        (r.foundSources w.disk) w₁
    · cases hok.symm.trans htranslate
      obtain ⟨hout, hdir⟩ := finish_eq_ok hfinish
      rw [hout, hdir, Result.ofTranslation, houtputs]
      exact separate_outputs hready.distinct _
    · cases herr.symm.trans htranslate
  · rw [Builder.build, bind_of_error hprep] at h
    cases h

/-- **The search for sources protects outputs from each other.** Unless the source directory cannot
be looked at, the search gives the sources that there are exactly if there are any and their stems
are all different. Without sources it says so; else it names the first source whose stem occurs
before it, and the first of that stem. So the outputs of what it gives, and of every build that
succeeds, are separate. -/
theorem discoverSources_protects_outputs (projectDir : Path) (given : Option (List Path))
    (w : World) :
    let search := discoverSources projectDir given
    ((given = none ∧ w.disk.locate (sourceDir projectDir) = .error .nameTooLong ∧
        search w = .error (.file (.on .nameTooLong (sourceDir projectDir))) w) ∨
      ∃ sources place, SourceList w.disk projectDir given sources place ∧
        ((∃ found v, search w = .ok found v) ↔
          sources ≠ [] ∧ (sources.map Path.stem).Nodup) ∧
        (∀ found v, search w = .ok found v → found = sources ∧ v = w) ∧
        (sources = [] → search w = .error (.build (.noSources place)) w) ∧
        (sources ≠ [] → ¬ (sources.map Path.stem).Nodup → ∃ first second,
          FirstClash sources first second ∧
            search w = .error (.build (.clash first second)) w)) ∧
    (∀ found v, search w = .ok found v →
      ∀ dir, Separate dir (found.map (Sketch.outputOf dir))) ∧
    ∀ (b : Builder) (r : Request) (result : Result) (v v' : World),
      b.build r v = .ok result v' → Separate result.sketchDir result.outputs := by
  intro search
  refine and_assoc.mp ⟨?_, fun b r result v v' => separate_of_build⟩
  rcases discoverSources_apply projectDir given w with
    ⟨hgiven, hlong, herr⟩ | ⟨sources, place, hsources, hrun⟩
  · refine ⟨Or.inl ⟨hgiven, hlong, herr⟩, fun found v h => ?_⟩
    cases herr.symm.trans h
  · by_cases haccept : sources ≠ [] ∧ (sources.map Path.stem).Nodup
    · have hok : search w = .ok sources w := by
        refine hrun.trans ?_
        rw [acceptSources_of_nodup place haccept.1 haccept.2]
        rfl
      have honly : ∀ found v, search w = .ok found v → found = sources ∧ v = w := by
        intro found v h
        cases hok.symm.trans h
        exact ⟨rfl, rfl⟩
      refine ⟨Or.inr ⟨sources, place, hsources, iff_of_true ⟨_, _, hok⟩ haccept, honly,
        fun hnil => absurd hnil haccept.1, fun _ hnot => absurd haccept.2 hnot⟩, ?_⟩
      intro found v h dir
      rw [(honly found v h).1]
      exact separate_outputs haccept.2 dir
    · obtain ⟨e, he⟩ := acceptSources_of_not place haccept
      have herr : search w = .error (.build e) w := by
        refine hrun.trans ?_
        rw [he]
        rfl
      have hnever : ∀ found v, search w ≠ .ok found v := by
        intro found v h
        cases herr.symm.trans h
      have hnone : ¬ ∃ found v, search w = .ok found v := by
        rintro ⟨found, v, h⟩
        exact hnever found v h
      refine ⟨Or.inr ⟨sources, place, hsources, iff_of_false hnone haccept,
        fun found v h => absurd h (hnever found v), fun hnil => ?_, fun hne hnot => ?_⟩,
        fun found v h => absurd h (hnever found v)⟩
      · refine hrun.trans ?_
        rw [hnil]
        rfl
      · obtain ⟨first, second, hclash, hrefuse⟩ := acceptSources_of_clash place hne hnot
        refine ⟨first, second, hclash, hrun.trans ?_⟩
        rw [hrefuse]
        rfl

/-- On an empty disk no sources are found below a name that is too long, but the search does not say
so: what the system says goes through. -/
theorem discoverSources_overlong :
    let projectDir : Path := ⟨.slash, [String.ofList (List.replicate 256 'a')]⟩
    let w := { Sample.world "" with disk := ⟨.empty, ⟨[], 0⟩, rfl⟩ }
    (∀ n, ¬ w.disk.HasEntry (sourceDir projectDir) n) ∧
      discoverSources projectDir none w =
        .error (.file (.on .nameTooLong (sourceDir projectDir))) w := by
  intro projectDir w
  refine ⟨fun n => ?_, ?_⟩
  · rw [Disk.HasEntry, Tree.get?_eq_lookup _ (by simp)]
    exact Bool.false_ne_true
  · have hnull : Disk.hasNull (sourceDir projectDir).toString = false := by
      rw [Disk.hasNull_toString]
      show (Disk.hasNull (String.ofList (List.replicate 256 'a')) || _) = false
      rw [Disk.hasNull, String.toList_ofList]
      decide +kernel
    have hshort : ¬ Disk.maxPath < (sourceDir projectDir).toString.utf8ByteSize := by
      decide +kernel
    have hlong : w.disk.locate (sourceDir projectDir) = .error .nameTooLong := by
      rw [Disk.locate, Disk.follow, if_neg (by simp [hnull]), if_neg hshort]
      decide +kernel
    exact bind_of_error (ask_of_error (Disk.list_eq_error_iff.mpr ⟨hlong, rfl⟩))

end Build

end SketchBuild
