import SketchBuild.CommandLine.Run
import SketchBuild.Proofs.Command
import SketchBuild.Proofs.Disk.Removal
import SketchBuild.Proofs.Loading

/-!
# What cleaning leaves of a project

`clean` removes the directory that the manifest names as the place of all output. The name is
joined to the project directory and not checked, so it may lead to the sources, to the project
itself or out of it. `clean_spares_iff` tells the names that do no harm.
-/

namespace SketchBuild

theorem Path.isAbsolute_join {p q : Path} (h : p.isAbsolute = true) :
    (p.join q).isAbsolute = true := by
  rw [join]
  split
  · assumption
  · exact h

namespace Disk

theorem isFile?_eq_true_iff {d : Disk} {p : Path} :
    d.isFile? p = .ok true ↔ ∃ c x, d.stat p = .ok (.file c x) := by
  rw [isFile?, ask]
  cases hs : d.stat p with
  | ok e => cases e <;> simp
  | error r => cases r <;> simp

theorem anchor_of_resolve {d : Disk} {p q : Path} (h : d.resolve p = .ok q) :
    q.anchor = .slash := by
  rw [resolve] at h
  repeat' split at h
  all_goals cases h
  all_goals rfl

end Disk

namespace Manifest

variable {w w' : World}

theorem reads_load (dir : Path) : Action.Reads (load dir) := by
  refine (Action.Reads.ask _).bind fun there => ?_
  dsimp only
  split
  · exact .throw _
  · exact (Action.Reads.readJson _ _ _).bind fun v => .ofExcept _ _

theorem reads_find (start : Path) : Action.Reads (find start) := by
  have hnearest : ∀ dirs, Action.Reads (nearest? dirs) := by
    intro dirs
    induction dirs with
    | nil => exact .pure none
    | cons dir dirs ih =>
        refine (Action.Reads.ask _).bind fun there => ?_
        split
        · exact .pure _
        · exact ih
  refine (Action.Reads.ask _).bind fun top => (hnearest _).bind fun found => ?_
  split
  · exact .throw _
  · exact (reads_load _).bind fun _ => .pure _

theorem nearest?_eq_some {dirs : List Path} {dir : Path}
    (h : nearest? dirs w = .ok (some dir) w') :
    w' = w ∧ dir ∈ dirs ∧ ∃ c x, w.disk.stat (dir.child fileName) = .ok (.file c x) := by
  induction dirs with
  | nil => cases h
  | cons d dirs ih =>
      obtain ⟨there, w₁, hask, h₁⟩ := Action.bind_eq_ok_iff.mp h
      obtain ⟨hfile, rfl⟩ := Action.ask_eq_ok_iff.mp hask
      cases there with
      | true =>
          cases h₁
          exact ⟨rfl, List.mem_cons_self, Disk.isFile?_eq_true_iff.mp hfile⟩
      | false =>
          obtain ⟨hw, hdir, hstat⟩ := ih h₁
          exact ⟨hw, List.mem_cons_of_mem _ hdir, hstat⟩

/-- A manifest is found in a file below a directory given from the root. -/
theorem find_eq_ok {start root : Path} {m : Manifest} (h : find start w = .ok (root, m) w') :
    w' = w ∧ root.isAbsolute = true ∧
      ∃ c x, w.disk.stat (root.child fileName) = .ok (.file c x) := by
  obtain ⟨top, w₁, hask, h₁⟩ := Action.bind_eq_ok_iff.mp h
  obtain ⟨hresolve, rfl⟩ := Action.ask_eq_ok_iff.mp hask
  obtain ⟨found, w₂, hnearest, h₂⟩ := Action.bind_eq_ok_iff.mp h₁
  cases found with
  | none => cases h₂
  | some dir =>
      obtain ⟨rfl, hdir, hstat⟩ := nearest?_eq_some hnearest
      obtain ⟨m', w₃, hload, h₃⟩ := Action.bind_eq_ok_iff.mp h₂
      cases h₃
      obtain ⟨n, -, rfl⟩ := List.mem_map.mp hdir
      refine ⟨(reads_load _ _ _ _ _ rfl rfl hload).1, ?_, hstat⟩
      rw [Path.isAbsolute, Disk.anchor_of_resolve hresolve]
      rfl

end Manifest

namespace CommandLine

/-- What has to be left of a project at `base`: its manifest, its sources and everything outside. -/
structure Spared (base : Location) (t t' : Tree) : Prop where
  manifest : t'.get? (base ++ [Manifest.fileName]) = t.get? (base ++ [Manifest.fileName])
  sources : ∀ l c x, base ++ ["src"] <+: l → t.get? l = some (.file c x) →
    t'.get? l = some (.file c x)
  outside : ∀ l, ¬ base <+: l → t'.get? l = t.get? l

/-- The directory at `loc` is inside the project at `base` and holds none of its sources. -/
structure Apart (base loc : Location) (t : Tree) : Prop where
  inside : base <+: loc
  ne : loc ≠ base
  sources : ∀ l c x, base ++ ["src"] <+: l → t.get? l = some (.file c x) → ¬ loc <+: l

theorem Spared.refl (base : Location) (t : Tree) : Spared base t t :=
  ⟨rfl, fun _ _ _ _ h => h, fun _ _ => rfl⟩

section Removal

variable {base : Location} {d : Disk} {p : Path} {c : List UInt8} {x : Bool}

/-- A directory that is apart can be removed without harm. -/
theorem Apart.spared (h : Apart base (d.target p).loc d.tree) (habs : p.isAbsolute = true)
    (hs : d.stat p = .ok .directory)
    (hfile : d.tree.get? (base ++ [Manifest.fileName]) = some (.file c x)) :
    Spared base d.tree (d.removeTree p).2.tree where
  manifest := by
    refine Disk.get?_removeTree_elsewhere habs hs fun hunder => ?_
    -- between a directory and its entry there is nothing
    obtain ⟨ns, hns⟩ := h.inside
    rw [← hns, List.prefix_append_right_inj] at hunder
    obtain rfl | ⟨rest, rfl, hrest⟩ := List.prefix_cons_iff.mp hunder
    · exact h.ne (by rw [← hns, List.append_nil])
    · rw [List.prefix_nil.mp hrest] at hns
      rw [hns, Disk.get?_target habs hs] at hfile
      cases hfile
  sources l c x hl he := by
    rw [Disk.get?_removeTree_elsewhere habs hs (h.sources l c x hl he), he]
  outside l hl :=
    Disk.get?_removeTree_elsewhere habs hs fun hunder => hl (h.inside.trans hunder)

/-- No other directory can: one at or above the project takes the manifest along, and what is gone
of one beside it is gone outside the project. -/
theorem Spared.apart (h : Spared base d.tree (d.removeTree p).2.tree) (habs : p.isAbsolute = true)
    (hs : d.stat p = .ok .directory)
    (hfile : d.tree.get? (base ++ [Manifest.fileName]) = some (.file c x)) :
    Apart base (d.target p).loc d.tree := by
  have hbelow : ¬ (d.target p).loc <+: base := by
    intro hunder
    have hlt : base ++ [Manifest.fileName] ≠ (d.target p).loc := by
      intro heq
      have hlen := hunder.length_le
      rw [← heq, List.length_append, List.length_singleton] at hlen
      omega
    have hgone := Disk.get?_removeTree_below habs hs
      (hunder.trans (List.prefix_append base [Manifest.fileName])) hlt
    rw [h.manifest, hfile] at hgone
    cases hgone
  refine ⟨?_, fun heq => hbelow (heq ▸ List.prefix_refl _), fun l c x hl he hunder => ?_⟩
  · obtain ⟨l, hl, ⟨e, he⟩, hgone⟩ := Disk.exists_gone_of_removeTree habs hs
      fun hnil => hbelow (hnil ▸ List.nil_prefix)
    by_cases hbase : base <+: l
    · exact (List.prefix_or_prefix_of_prefix hbase hl).resolve_right hbelow
    · rw [h.outside l hbase, he] at hgone
      cases hgone
  · have hne : l ≠ (d.target p).loc := by
      rintro rfl
      cases he.symm.trans (Disk.get?_target habs hs)
    have hgone := Disk.get?_removeTree_below habs hs hunder hne
    rw [h.sources l c x hl he] at hgone
    cases hgone

end Removal

section Clean

variable {dir root : Path} {m : Manifest} {w : World} {name : String}

theorem loadProject_of_find (hfind : Manifest.find dir w = .ok (root, m) w) :
    loadProject dir w = .ok (root, m) w :=
  Command.tryCatch_of_ok (Command.lift_of_ok hfind)

/-- A change that may fail half way leaves the disk as it does, whether or not its success is
told. -/
theorem disk_after_changePartly (operation : Disk → Option FileError × Disk) (message : String)
    (w : World) :
    ((do
      liftM (Action.changePartly operation)
      liftM (Console.success message) : Command Unit).after w).disk = (operation w.disk).2 := by
  rcases hop : operation w.disk with ⟨failure, d⟩
  cases failure with
  | some e =>
      have hchange := Action.changePartly_of_some hop
      rw [Command.after_bind_of_error (Command.lift_of_error hchange)]
  | none =>
      have hchange := Action.changePartly_of_none hop
      rw [Command.after_bind_of_ok (Command.lift_of_ok hchange), Command.after_lift]
      obtain ⟨w', hshow, hquiet⟩ := Console.shows_success message { w with disk := d }
      rw [Action.after_of_ok hshow]
      exact hquiet.disk

/-- A project is cleaned by looking for the directory that its manifest names. -/
theorem clean_of_find {s : Text.Str} (hfind : Manifest.find dir w = .ok (root, m) w)
    (hname : m.build.outputDir = .str s) :
    clean dir w = (do
      if !(← (Directory.ofStr root s).isThere) then
        Action.printStr (s ++ " does not exist - nothing to clean")
        return
      let path ← Action.ofExcept .pieces (Directory.ofStr root s).path
      Action.changePartly (·.removeTree path)
      Console.success s!"Removed {path}" : Command Unit) w := by
  rw [clean, Command.bind_of_ok (loadProject_of_find hfind)]
  dsimp only
  rw [hname]
  rfl

/-- Cleaning does to the disk what removing the directory does. -/
theorem disk_after_clean (hfind : Manifest.find dir w = .ok (root, m) w)
    (hname : m.build.outputDir = .text name) :
    ((clean dir).after w).disk = (w.disk.removeTree (root.join (.ofString name))).2 := by
  have hnothing : w.disk.exists? (root.join (.ofString name)) ≠ .ok true →
      (w.disk.removeTree (root.join (.ofString name))).2 = w.disk := by
    intro hne
    refine Disk.removeTree_of_stat_ne fun hstat => hne ?_
    rw [Disk.exists?, Disk.ask, hstat]
  have hthere : (Directory.ofStr root (.text name)).isThere =
      Action.ask (·.exists? (root.join (.ofString name))) := rfl
  rw [Command.after_congr (clean_of_find hfind hname), hthere]
  cases hexists : w.disk.exists? (root.join (.ofString name)) with
  | error e =>
      have hask : Action.ask (·.exists? (root.join (.ofString name))) w = .error (.file e) w :=
        Action.ask_of_error hexists
      rw [Command.after_bind_of_error (Command.lift_of_error hask), hnothing (by simp [hexists])]
  | ok there =>
      have hask : Action.ask (·.exists? (root.join (.ofString name))) w = .ok there w :=
        Action.ask_of_ok hexists
      rw [Command.after_bind_of_ok (Command.lift_of_ok hask)]
      cases there with
      | false =>
          rw [hnothing (by simp [hexists])]
          rfl
      | true =>
          have hpath : Action.ofExcept Fault.pieces (Directory.ofStr root (.text name)).path w =
              .ok (root.join (.ofString name)) w := rfl
          rw [Bool.not_true, if_neg Bool.false_ne_true,
            Command.after_bind_of_ok (Command.lift_of_ok hpath)]
          exact disk_after_changePartly (·.removeTree (root.join (.ofString name))) _ w

/-- A torn name leads to no directory, so there is nothing to remove. -/
theorem disk_after_clean_of_torn {ps : List Text.Piece} {hps : Text.chars? ps = none}
    (hfind : Manifest.find dir w = .ok (root, m) w)
    (hname : m.build.outputDir = .str (.torn ps hps)) :
    ((clean dir).after w).disk = w.disk := by
  have htorn :
      (.torn ps hps ++ " does not exist - nothing to clean" : Text.Str).isText = false := by
    simp
  obtain ⟨e, hprint⟩ := Action.printStr_of_torn htorn
  have hthere : (Directory.ofStr root (.torn ps hps)).isThere w = .ok false w := rfl
  rw [Command.after_congr (clean_of_find hfind hname),
    Command.after_bind_of_ok (Command.lift_of_ok hthere), hprint]
  rfl

/-- **When cleaning spares the project.** The manifest, the sources and all outside the project are
left as they are exactly if the name of the output directory leads to no directory, or to one inside
the project that is not the project itself and holds none of its sources. -/
theorem clean_spares_iff {s : Text.Str} (hfind : Manifest.find dir w = .ok (root, m) w)
    (hname : m.build.outputDir = .str s) :
    Spared (w.disk.target root).loc w.disk.tree ((clean dir).after w).disk.tree ↔
      ∀ name, s = .text name → w.disk.stat (root.join (.ofString name)) = .ok .directory →
        Apart (w.disk.target root).loc (w.disk.target (root.join (.ofString name))).loc
          w.disk.tree := by
  obtain ⟨-, habs, c, x, hfile⟩ := Manifest.find_eq_ok hfind
  obtain ⟨-, hget⟩ := Disk.get?_of_stat_child hfile (by decide) (by decide)
  cases s with
  | torn ps hps =>
      rw [disk_after_clean_of_torn hfind hname]
      refine iff_of_true (.refl _ _) ?_
      rintro name ⟨⟩
  | text name =>
      have hout : (root.join (.ofString name)).isAbsolute = true := Path.isAbsolute_join habs
      rw [disk_after_clean hfind hname]
      by_cases hs : w.disk.stat (root.join (.ofString name)) = .ok .directory
      · constructor
        · rintro h name ⟨⟩ -
          exact h.apart hout hs hget
        · intro h
          exact (h name rfl hs).spared hout hs hget
      · rw [Disk.removeTree_of_stat_ne hs]
        refine iff_of_true (.refl _ _) ?_
        rintro name ⟨⟩ hstat
        exact absurd hstat hs

end Clean

/-! ## A sample -/

namespace CleanSample

/-- A manifest that names the output directory. -/
def manifest (output : String) : List UInt8 :=
  Text.Utf8.encode
    ("\x7b\"name\": \"p\", \"build\": \x7b\"output_dir\": \"" ++ output ++ "\"\x7d\x7d").toList

/-- What lies on the disk: a project in `/p` that was built, and a directory beside it. -/
def entries (output : String) : List (Location × Entry) :=
  [(["p"], .directory), (["p", "goduino.json"], .file (manifest output) false),
    (["p", "src"], .directory), (["p", "src", "main.go"], .file [] false),
    (["p", "build"], .directory), (["p", "build", "p.ino"], .file [] false),
    (["q"], .directory), (["q", "notes"], .file [] false)]

/-- The world with this disk. -/
def world (output : String) : World where
  disk := ⟨.ofList (entries output), ⟨[], 0⟩, rfl⟩
  env := ⟨none, none, none, none⟩
  tools := fun _ _ d => ⟨d.tree, .error .notFound⟩
  host := ⟨"", "", "", .ofDepths 900 900⟩

/-- The project. -/
def project : Path := ⟨.slash, ["p"]⟩

/-- The locations that cleaning takes away. -/
def gone (output : String) : List Location :=
  let t := ((clean project).after (world output)).disk.tree
  ((entries output).map (·.1)).filter fun l => (t.get? l).isNone

/-- The string that a manifest gives for the output directory. -/
def outputName? (m : Manifest) : Option Text.Str :=
  match m.build.outputDir with
  | .str s => some s
  | _ => none

/-- The manifest is accepted and names the output directory. -/
def Accepts (output : String) : Prop :=
  ∃ m, Manifest.find project (world output) = .ok (project, m) (world output) ∧
    m.build.outputDir = .text output

theorem accepts_of_value? {output : String}
    (h : ((Manifest.find project).value? (world output)).map (fun r => (r.1, outputName? r.2)) =
      some (project, some (.text output))) : Accepts output := by
  obtain ⟨⟨r, m⟩, hvalue, hpair⟩ := Option.map_eq_some_iff.mp h
  obtain ⟨rfl, hname⟩ := Prod.mk.inj hpair
  have hfind := Action.value?_eq_some_iff.mp hvalue
  rw [(Manifest.find_eq_ok hfind).1] at hfind
  refine ⟨m, hfind, ?_⟩
  dsimp only at hname
  rw [outputName?] at hname
  split at hname
  · next s hs =>
      rw [hs, Option.some.inj hname]
      rfl
  · cases hname

/-- The name is accepted, and a location that has to be left is gone. -/
def Destroys (output : String) (l : Location) : Prop :=
  Accepts output ∧ l ∈ gone output ∧
    ¬ Spared ["p"] (world output).disk.tree ((clean project).after (world output)).disk.tree

/-- Whether an entry has to be left: the manifest, a source, or what is outside the project. -/
def isKept (l : Location) (e : Entry) : Bool :=
  l = ["p", "goduino.json"] || (["p", "src"].isPrefixOf l && e ≠ .directory) ||
    !(["p"].isPrefixOf l)

theorem destroys_of_gone {output : String} {l : Location}
    (hvalue : ((Manifest.find project).value? (world output)).map
      (fun r => (r.1, outputName? r.2)) = some (project, some (.text output)))
    (hl : l ∈ gone output)
    (hkept : ((world output).disk.tree.get? l).any (isKept l) = true) :
    Destroys output l := by
  refine ⟨accepts_of_value? hvalue, hl, fun hspared => ?_⟩
  have hnone : ((clean project).after (world output)).disk.tree.get? l = none :=
    Option.isNone_iff_eq_none.mp (List.mem_filter.mp hl).2
  cases hthere : (world output).disk.tree.get? l with
  | none =>
      rw [hthere] at hkept
      cases hkept
  | some e =>
      rw [hthere, Option.any_some, isKept, Bool.or_eq_true, Bool.or_eq_true] at hkept
      rcases hkept with (hmanifest | hsource) | houtside
      · obtain rfl := of_decide_eq_true hmanifest
        cases hnone.symm.trans (hspared.manifest.trans hthere)
      · obtain ⟨hunder, hfile⟩ := Bool.and_eq_true_iff.mp hsource
        cases e with
        | directory => exact absurd rfl (of_decide_eq_true hfile)
        | file c x =>
            cases hnone.symm.trans
              (hspared.sources l c x (List.isPrefixOf_iff_prefix.mp hunder) hthere)
      · have hnot : ¬ ["p"] <+: l := fun h => by
          rw [List.isPrefixOf_iff_prefix.mpr h] at houtside
          cases houtside
        cases hnone.symm.trans ((hspared.outside l hnot).trans hthere)

end CleanSample

open CleanSample in
/-- An output directory of its own is removed, and the project is spared. -/
theorem clean_spares_build :
    Accepts "build" ∧
      Spared ["p"] (world "build").disk.tree ((clean project).after (world "build")).disk.tree ∧
      gone "build" = [["p", "build"], ["p", "build", "p.ino"]] := by
  have haccepts : Accepts "build" := accepts_of_value? (by decide +kernel)
  have ⟨m, hfind, hname⟩ := haccepts
  refine ⟨haccepts, (clean_spares_iff hfind hname).mpr ?_, by decide +kernel⟩
  rintro name ⟨⟩ -
  have hloc : ((world "build").disk.target (project.join (.ofString "build"))).loc =
      ["p", "build"] := by
    decide +kernel
  rw [hloc]
  refine ⟨by decide, by decide, fun l c x hl _ hunder => ?_⟩
  exact absurd (List.prefix_or_prefix_of_prefix hl hunder) (by decide)

open CleanSample in
/-- Other names that the manifest may give take the project, its sources or a directory beside it
away. -/
theorem clean_destroys :
    Destroys "" ["p", "goduino.json"] ∧ Destroys "src" ["p", "src", "main.go"] ∧
      Destroys ".." ["q"] ∧ Destroys "/q" ["q"] := by
  refine ⟨destroys_of_gone ?_ ?_ ?_, destroys_of_gone ?_ ?_ ?_, destroys_of_gone ?_ ?_ ?_,
    destroys_of_gone ?_ ?_ ?_⟩ <;> decide +kernel

end CommandLine

end SketchBuild
