import Mathlib.Algebra.GroupWithZero.Nat
import Mathlib.Data.List.Infix
import SketchBuild.Proofs.Disk.Outside
import SketchBuild.Proofs.Disk.Refusal
import SketchBuild.Proofs.LoadFaults

/-!
# The nearest manifest

A search starts at a directory and asks for a manifest file there and in every directory above it.
The start may be given relative to the working directory and with `..`, so it is first traced back
to the root: `Disk.Traced d p loc` says that the path `p` leads to the directory at `loc`, and from
where. From there on only the locations at and above `loc` matter, and of the tree only its manifest
files at them (`fileAt`). The nearest one is loaded, be it readable or not.

The search can be refused before that. It asks by paths from the root, which may be longer than the
system takes although the start was reached by a shorter one; and a working directory that was
removed has no such path at all.
-/

namespace SketchBuild

/-! ## Directories and the root -/

/-- The text of a path from the root has a slash before every name. -/
theorem Path.utf8ByteSize_child_slash (l : Location) (n : String) :
    (child ⟨.slash, l⟩ n).toString.utf8ByteSize =
      (l.map (·.utf8ByteSize + 1)).sum + (n.utf8ByteSize + 1) := by
  have hjoined : ("/".intercalate (l ++ [n])).utf8ByteSize =
      (l.map (·.utf8ByteSize + 1)).sum + n.utf8ByteSize := by
    induction l with
    | nil => simp
    | cons m l ih =>
        have hne : l ++ [n] ≠ [] := by simp
        obtain ⟨m', l', hl⟩ := List.exists_cons_of_ne_nil hne
        rw [hl] at ih
        rw [List.cons_append, hl, String.intercalate_cons_cons, String.utf8ByteSize_append,
          String.utf8ByteSize_append, ih, List.map_cons, List.sum_cons,
          show "/".utf8ByteSize = 1 from rfl]
        omega
  show ("/" ++ "/".intercalate (l ++ [n])).utf8ByteSize = _
  rw [String.utf8ByteSize_append, hjoined, show "/".utf8ByteSize = 1 from rfl]
  omega

namespace Disk

/-- From every directory on the way, the remaining names lead to the end. -/
theorem passable_of_isDirectory {t : Tree} {loc : Location} {ns : List String}
    (h : t.isDirectory (loc ++ ns) = true) :
    Passable t ⟨loc, 0⟩ ns ∧ Place.along ⟨loc, 0⟩ ns = ⟨loc ++ ns, 0⟩ := by
  induction ns generalizing loc with
  | nil => exact ⟨trivial, by rw [List.append_nil]; rfl⟩
  | cons n ns ih =>
      obtain ⟨h1, h2, hlen, -⟩ := Tree.isName_iff.mp (Tree.isName_of_mem (n := n) h (by simp))
      have hdir := Tree.isDirectory_of_prefix (List.prefix_append loc (n :: ns)) h
      rw [List.append_cons] at h ⊢
      obtain ⟨hrest, hplace⟩ := ih h
      rw [Passable, Place.along_cons, Place.next_eq_child h1 h2]
      exact ⟨⟨decide_eq_true_eq.mp hdir, .inr (.inr ⟨rfl, hlen⟩), hrest⟩, hplace⟩

/-- A path leads to the directory at a location and can be traced back to the root: it starts there,
or at a working directory that was not removed. -/
structure Traced (d : Disk) (p : Path) (loc : Location) : Prop where
  rooted : p.isAbsolute = true ∨ d.cwd.lost = 0
  directory : d.stat p = .ok .directory
  place : (d.target p).loc = loc

/-- Removing `..` by the text of a path goes where a walk goes. -/
theorem along_eq_collapse {done ns : List String} (h : "." ∉ ns) :
    Place.along ⟨done, 0⟩ ns = ⟨collapse done ns, 0⟩ := by
  induction ns generalizing done with
  | nil => rfl
  | cons n ns ih =>
      obtain ⟨hn, hns⟩ := not_or.mp (List.mem_cons.not.mp h)
      rw [Place.along_cons, collapse, Place.next, if_neg (Ne.symm hn)]
      split
      · exact ih hns
      · exact ih hns

section Resolve

variable {d : Disk} {p : Path} {loc : Location}

/-- A path that is traced back to the root is resolved to the path from the root. -/
theorem Traced.resolve (h : d.Traced p loc) (hdot : "." ∉ p.parts) :
    d.tree.isDirectory loc = true ∧ d.resolve p = .ok ⟨.slash, loc⟩ := by
  obtain ⟨hspell, hp, hdir⟩ := stat_eq_ok_iff.mp h.directory
  have hany : ¬ p.parts.any hasNull = true := by
    simpa using hasNull_of_mem_parts hspell
  -- either way, the walk starts at a directory of the tree
  obtain ⟨base, horigin, hresolve⟩ : ∃ base,
      d.origin p = ⟨base, 0⟩ ∧ d.resolve p = .ok ⟨.slash, collapse base p.parts⟩ := by
    by_cases habs : p.isAbsolute = true
    · refine ⟨[], ?_, ?_⟩
      · rw [origin, if_pos habs]
      · rw [Disk.resolve, if_neg hany, if_pos habs]
    · have hlost := h.rooted.resolve_left habs
      refine ⟨d.cwd.loc, ?_, ?_⟩
      · rw [origin, if_neg habs, ← hlost]
      · rw [Disk.resolve, if_neg hany, if_neg habs, workingDirectory, if_pos hlost]
  have htarget : d.target p = ⟨collapse base p.parts, 0⟩ := by
    rw [target, horigin, along_eq_collapse hdot]
  have hloc : collapse base p.parts = loc := by
    rw [← h.place, htarget]
  rw [htarget, hloc] at hdir
  exact ⟨decide_eq_true hdir, hloc ▸ hresolve⟩

/-- A removed working directory has no path to which another could be resolved. -/
theorem resolve_of_lost (hs : d.stat p = .ok .directory) (hrel : p.isAbsolute = false)
    (hlost : d.cwd.lost ≠ 0) : d.resolve p = .error ⟨.notFound, .nothing⟩ := by
  obtain ⟨hspell, -, -⟩ := stat_eq_ok_iff.mp hs
  have hany : ¬ p.parts.any hasNull = true := by
    simpa using hasNull_of_mem_parts hspell
  rw [resolve, if_neg hany, if_neg (by simp [hrel]), workingDirectory, if_neg hlost]

end Resolve

/-! ## Entries of a directory given from the root -/

section Child

variable {d : Disk} {loc l : Location} {n : String}

/-- An entry of a directory is found by its path from the root, if the system takes the text of this
path. -/
theorem locate_child (h : d.tree.isDirectory loc = true) (hn : Tree.isName n = true) :
    d.locate (Path.child ⟨.slash, loc⟩ n) =
      if maxPath < (Path.child ⟨.slash, loc⟩ n).toString.utf8ByteSize then .error .nameTooLong
      else .ok ⟨loc ++ [n], 0⟩ := by
  obtain ⟨h1, h2, hlen, hnull⟩ := Tree.isName_iff.mp hn
  have hnames : hasNull (Path.child ⟨.slash, loc⟩ n).toString = false := by
    rw [hasNull_toString, List.any_eq_false]
    refine List.forall_mem_append.mpr ⟨fun m hm => ?_, List.forall_mem_singleton.mpr ?_⟩
    · simp [(Tree.isName_iff.mp (Tree.isName_of_mem h hm)).2.2.2]
    · simp [hnull]
  obtain ⟨hp, halong⟩ := @passable_of_isDirectory d.tree [] loc h
  have hwalk : walk d.tree ⟨[], 0⟩ (loc ++ [n]) = .ok ⟨loc ++ [n], 0⟩ := by
    refine walk_eq_ok_iff.mpr ⟨passable_append.mpr ⟨hp, ?_⟩, ?_⟩
    · rw [halong]
      exact ⟨decide_eq_true_eq.mp h, .inr (.inr ⟨rfl, hlen⟩), trivial⟩
    · rw [Place.along_append, halong, Place.along_cons, Place.along_nil, Place.next_eq_child h1 h2]
      rfl
  rw [locate, follow, if_neg (by simp [hnames])]
  exact congrArg _ hwalk

theorem stat_child (h : d.tree.isDirectory loc = true) (hn : Tree.isName n = true)
    (hlen : (Path.child ⟨.slash, loc⟩ n).toString.utf8ByteSize ≤ maxPath) :
    d.stat (Path.child ⟨.slash, loc⟩ n) =
      (d.tree.get? (loc ++ [n])).elim (.error .notFound) .ok := by
  rw [stat, locate_child h hn, if_neg (Nat.not_lt_of_le hlen)]
  dsimp only
  rw [Place.occupant?_mk_zero]
  cases d.tree.get? (loc ++ [n]) <;> rfl

/-- The path to an entry is no longer for a directory above. -/
theorem utf8ByteSize_child_le (hl : l <+: loc) (n : String) :
    (Path.child ⟨.slash, l⟩ n).toString.utf8ByteSize ≤
      (Path.child ⟨.slash, loc⟩ n).toString.utf8ByteSize := by
  obtain ⟨ns, rfl⟩ := hl
  rw [Path.utf8ByteSize_child_slash, Path.utf8ByteSize_child_slash, List.map_append,
    List.sum_append]
  omega

end Child

end Disk

namespace Manifest

open Disk (Traced maxPath)

/-! ## Manifest files -/

theorem isName_fileName : Tree.isName fileName = true := by decide

/-- The path of the manifest file of a directory. -/
def pathAt (loc : Location) : Path := Path.child ⟨.slash, loc⟩ fileName

/-- The bytes of the manifest file in a directory; there are none if what has this name is a
directory itself. -/
def fileAt (t : Tree) (loc : Location) : Option (List UInt8) :=
  (t.get? (loc ++ [fileName])).bind Entry.content?

/-- `dir` is the nearest of the locations at and above `loc` that hold a manifest file. -/
structure Nearest (t : Tree) (loc dir : Location) : Prop where
  above : dir <+: loc
  holds : fileAt t dir ≠ none
  below : ∀ l, l <+: loc → dir.length < l.length → fileAt t l = none

namespace Nearest

variable {t t' : Tree} {loc dir dir' : Location} {n : String}

theorem of_holds (h : fileAt t loc ≠ none) : Nearest t loc loc where
  above := List.prefix_refl loc
  holds := h
  below _ hl hlt := absurd hl.length_le (Nat.not_le_of_lt hlt)

theorem concat (h : Nearest t loc dir) (hn : fileAt t (loc ++ [n]) = none) :
    Nearest t (loc ++ [n]) dir where
  above := h.above.trans (List.prefix_append loc [n])
  holds := h.holds
  below l hl hlt := by
    rcases List.prefix_concat_iff.mp hl with rfl | hl
    · exact hn
    · exact h.below l hl hlt

theorem unique (h : Nearest t loc dir) (h' : Nearest t loc dir') : dir = dir' := by
  have hle : ∀ {a b : Location}, Nearest t loc a → Nearest t loc b → b.length ≤ a.length :=
    fun ha hb => Nat.le_of_not_lt fun hlt => hb.holds (ha.below _ hb.above hlt)
  exact (List.prefix_of_prefix_length_le h.above h'.above (hle h' h)).eq_of_length
    (Nat.le_antisymm (hle h' h) (hle h h'))

/-- Only the manifest files above the location matter. -/
theorem congr (h : Nearest t loc dir) (hfiles : ∀ l, l <+: loc → fileAt t' l = fileAt t l) :
    Nearest t' loc dir where
  above := h.above
  holds := by rw [hfiles dir h.above]; exact h.holds
  below l hl hlt := by rw [hfiles l hl, h.below l hl hlt]

end Nearest

/-! ## Searching -/

section Search

variable {w w' : World} {loc dir : Location}

theorem stat_pathAt (h : w.disk.tree.isDirectory loc = true)
    (hlen : (pathAt loc).toString.utf8ByteSize ≤ maxPath) :
    w.disk.stat (pathAt loc) =
      (w.disk.tree.get? (loc ++ [fileName])).elim (.error .notFound) .ok :=
  Disk.stat_child h isName_fileName hlen

/-- A directory of the name of a manifest file is none. -/
theorem isFile?_pathAt (h : w.disk.tree.isDirectory loc = true)
    (hlen : (pathAt loc).toString.utf8ByteSize ≤ maxPath) :
    w.disk.isFile? (pathAt loc) = .ok (fileAt w.disk.tree loc).isSome := by
  rw [Disk.isFile?, Disk.ask, stat_pathAt h hlen, fileAt]
  cases w.disk.tree.get? (loc ++ [fileName]) with
  | none => rfl
  | some e => cases e <;> rfl

theorem isFile?_pathAt_of_long (h : w.disk.tree.isDirectory loc = true)
    (hlen : maxPath < (pathAt loc).toString.utf8ByteSize) :
    w.disk.isFile? (pathAt loc) = .error (.on .nameTooLong (pathAt loc)) := by
  refine Disk.ask_eq_error_iff.mpr ⟨?_, rfl⟩
  rw [pathAt, Disk.locate_child h isName_fileName]
  exact if_pos hlen

theorem nearest?_cons_of_isFile {dir : Path} (dirs : List Path)
    (h : w.disk.isFile? (dir.child fileName) = .ok true) :
    nearest? (dir :: dirs) w = .ok (some dir) w :=
  (Action.bind_of_ok (Action.ask_of_ok h)).trans rfl

theorem nearest?_cons_of_not_isFile {dir : Path} (dirs : List Path)
    (h : w.disk.isFile? (dir.child fileName) = .ok false) :
    nearest? (dir :: dirs) w = nearest? dirs w :=
  (Action.bind_of_ok (Action.ask_of_ok h)).trans rfl

theorem upward_concat (a : Anchor) (l : Location) (n : String) :
    upward ⟨a, l ++ [n]⟩ = ⟨a, l ++ [n]⟩ :: upward ⟨a, l⟩ := by
  rw [upward, upward, List.length_append, List.length_singleton, List.range_succ_eq_map,
    List.map_cons, List.map_map]
  refine congrArg₂ List.cons ?_ (List.map_congr_left fun k _ => ?_)
  · rw [Nat.sub_zero, List.take_of_length_le (by simp)]
  · rw [Function.comp_apply, Nat.succ_eq_add_one, Nat.add_sub_add_right,
      List.take_append_of_le_length (Nat.sub_le _ _)]

theorem exists_upward_eq_cons (dir : Path) : ∃ rest, upward dir = dir :: rest := by
  rw [upward, List.range_succ_eq_map, List.map_cons, Nat.sub_zero, List.take_length]
  exact ⟨_, rfl⟩

/-- The search goes up to the nearest manifest file, and to the root if there is none. -/
theorem nearest?_upward (h : w.disk.tree.isDirectory loc = true)
    (hlen : (pathAt loc).toString.utf8ByteSize ≤ maxPath) :
    (∃ dir, Nearest w.disk.tree loc dir ∧
      nearest? (upward ⟨.slash, loc⟩) w = .ok (some ⟨.slash, dir⟩) w) ∨
    (∀ dir, dir <+: loc → fileAt w.disk.tree dir = none) ∧
      nearest? (upward ⟨.slash, loc⟩) w = .ok none w := by
  have hfile := isFile?_pathAt h hlen
  induction loc using List.reverseRecOn with
  | nil =>
      cases hc : fileAt w.disk.tree [] with
      | some c =>
          rw [hc] at hfile
          exact .inl ⟨[], .of_holds (by simp [hc]), nearest?_cons_of_isFile [] hfile⟩
      | none =>
          rw [hc] at hfile
          refine .inr ⟨fun dir hdir => ?_, nearest?_cons_of_not_isFile [] hfile⟩
          rw [List.prefix_nil.mp hdir, hc]
  | append_singleton loc n ih =>
      rw [upward_concat]
      cases hc : fileAt w.disk.tree (loc ++ [n]) with
      | some c =>
          rw [hc] at hfile
          exact .inl ⟨loc ++ [n], .of_holds (by simp [hc]), nearest?_cons_of_isFile _ hfile⟩
      | none =>
          rw [hc] at hfile
          rw [nearest?_cons_of_not_isFile _ hfile]
          have hpre : loc <+: loc ++ [n] := List.prefix_append loc [n]
          have hlen' := (Disk.utf8ByteSize_child_le hpre fileName).trans hlen
          have h' := Tree.isDirectory_of_prefix hpre h
          obtain ⟨dir, hdir, hfound⟩ | ⟨hnone, hfound⟩ := ih h' hlen' (isFile?_pathAt h' hlen')
          · exact .inl ⟨dir, hdir.concat hc, hfound⟩
          · refine .inr ⟨fun dir hdir => ?_, hfound⟩
            rcases List.prefix_concat_iff.mp hdir with rfl | hdir
            · exact hc
            · exact hnone dir hdir

end Search

/-! ## Loading -/

/-- The manifest that the bytes of a file hold, or the fault that is found in them, where values may
be nested `depth` deep. -/
def ofBytes (depth : Nat) (file : Path) (bs : List UInt8) : Except Fault Manifest :=
  match Text.Utf8.decodeStrict bs with
  | .error e => .error (.bytes e)
  | .ok cs =>
    match Json.parse depth (Text.unifyBreaks cs) with
    | .ok v => (ofJson v).mapError .manifest
    | .error e => .error (Action.readFault (fun e => .manifest (.unreadable file e)) e)

/-- The manifest that a file with these bytes holds in a world. -/
def held (w : World) (dir : Location) (bs : List UInt8) : Except Fault Manifest :=
  ofBytes (w.host.room.reads .manifest) (pathAt dir) bs

/-- Loading a manifest gives what the bytes of its file hold. -/
theorem load_of_stat {w : World} {dir : Path} {bs : List UInt8} {x : Bool}
    (h : w.disk.stat (dir.child fileName) = .ok (.file bs x)) :
    load dir w =
      Action.ofExcept id (ofBytes (w.host.room.reads .manifest) (dir.child fileName) bs) w := by
  rw [load, Action.bind_of_ok (Action.ask_exists?_of_stat h), ofBytes]
  show (Action.readJson .manifest (dir.child fileName) _ >>= _) w = _
  cases hdecode : Text.Utf8.decodeStrict bs with
  | error e =>
      have hread : Action.readText (dir.child fileName) w = .error (.bytes e) w := by
        rw [Action.readText,
          Action.bind_of_ok (Action.ask_of_ok (Disk.readFile_eq_ok_iff.mpr ⟨x, h⟩)), hdecode]
        rfl
      exact Action.bind_of_error (Action.bind_of_error hread)
  | ok cs =>
      rw [Text.Utf8.decodeStrict_eq_ok_iff.mp hdecode] at h
      refine (Action.bind_congr (Action.readJson_of_encode h)).trans ?_
      dsimp only
      cases Json.parse (w.host.room.reads .manifest) (Text.unifyBreaks cs) with
      | error e => rfl
      | ok v =>
          show Action.ofExcept .manifest (ofJson v) w =
            Action.ofExcept id ((ofJson v).mapError .manifest) w
          cases ofJson v <;> rfl

/-! ## Finding -/

section Find

variable {start : Path} {w : World} {loc dir : Location} {bs : List UInt8}

/-- The manifest file of a directory is loaded by its bytes. -/
theorem load_of_fileAt (h : w.disk.tree.isDirectory dir = true)
    (hlen : (pathAt dir).toString.utf8ByteSize ≤ maxPath)
    (hbs : fileAt w.disk.tree dir = some bs) :
    load ⟨.slash, dir⟩ w = Action.ofExcept id (held w dir bs) w := by
  have hstat := stat_pathAt h hlen
  obtain ⟨e, he, hcontent⟩ := Option.bind_eq_some_iff.mp hbs
  rw [he] at hstat
  cases e with
  | directory => cases hcontent
  | file c x =>
      cases hcontent
      exact load_of_stat hstat

theorem find_of_nearest? {top : Path} (h : w.disk.resolve start = .ok top) {found : Option Path}
    (hfound : nearest? (upward top) w = .ok found w) :
    find start w =
      (found.elim (throw (.manifest (.noneAbove top))) fun dir =>
        load dir >>= fun m => pure (dir, m) : Action (Path × Manifest)) w := by
  rw [find, Action.bind_of_ok (Action.ask_of_ok h), Action.bind_of_ok hfound]
  cases found <;> rfl

/-- A start is refused if the path of a manifest file in it would be too long. -/
theorem find_of_long (h : w.disk.Traced start loc) (hdot : "." ∉ start.parts)
    (hlen : maxPath < (pathAt loc).toString.utf8ByteSize) :
    find start w = .error (.file (.on .nameTooLong (pathAt loc))) w := by
  obtain ⟨hs, hresolve⟩ := h.resolve hdot
  obtain ⟨rest, hrest⟩ := exists_upward_eq_cons ⟨.slash, loc⟩
  have hsearch : nearest? (upward ⟨.slash, loc⟩) w =
      .error (.file (.on .nameTooLong (pathAt loc))) w := by
    rw [hrest]
    exact Action.bind_of_error (Action.ask_of_error (isFile?_pathAt_of_long hs hlen))
  rw [find, Action.bind_of_ok (Action.ask_of_ok hresolve), Action.bind_of_error hsearch]

/-- Otherwise the nearest manifest file is loaded. -/
theorem find_of_nearest (h : w.disk.Traced start loc) (hdot : "." ∉ start.parts)
    (hlen : (pathAt loc).toString.utf8ByteSize ≤ maxPath) (hdir : Nearest w.disk.tree loc dir)
    (hbs : fileAt w.disk.tree dir = some bs) :
    load ⟨.slash, dir⟩ w = Action.ofExcept id (held w dir bs) w ∧
      find start w = Action.ofExcept id ((held w dir bs).map (⟨.slash, dir⟩, ·)) w := by
  obtain ⟨hs, hresolve⟩ := h.resolve hdot
  have hload := load_of_fileAt (Tree.isDirectory_of_prefix hdir.above hs)
    ((Disk.utf8ByteSize_child_le hdir.above fileName).trans hlen) hbs
  refine ⟨hload, ?_⟩
  obtain ⟨dir', hdir', hfound⟩ | ⟨hnone, -⟩ := nearest?_upward hs hlen
  · cases hdir.unique hdir'
    rw [find_of_nearest? hresolve hfound]
    refine (Action.bind_congr hload).trans ?_
    cases held w dir bs <;> rfl
  · exact absurd (hnone dir hdir.above) hdir.holds

theorem find_of_none (h : w.disk.Traced start loc) (hdot : "." ∉ start.parts)
    (hlen : (pathAt loc).toString.utf8ByteSize ≤ maxPath)
    (hnone : ∀ dir, dir <+: loc → fileAt w.disk.tree dir = none) :
    find start w = .error (.manifest (.noneAbove ⟨.slash, loc⟩)) w := by
  obtain ⟨hs, hresolve⟩ := h.resolve hdot
  obtain ⟨dir, hdir, -⟩ | ⟨-, hfound⟩ := nearest?_upward hs hlen
  · exact absurd (hnone dir hdir.above) hdir.holds
  · exact find_of_nearest? hresolve hfound

end Find

/-- **The nearest manifest wins.** Let a path lead to a directory. If it is relative to a working
directory that was removed, the search is refused. Otherwise the start is the directory at some
location. If the path of a manifest file there is longer than the system takes, the search is
refused as well. If not, it ends with the nearest directory at or above the start that holds a
manifest file, and with what loading this file gives, a fault included; where no directory does, it
reports that there is none above the start. Nothing else on the disk matters: wherever the path
leads to the same location and the manifest files at and above it have the same bytes, the search
gives the same, if the stack has the same room for reading them. -/
theorem find_uses_nearest (text : String) (w : World) :
    let start := Path.ofString text
    (w.disk.stat start = .ok .directory → start.isAbsolute = false → w.disk.cwd.lost ≠ 0 →
      find start w = .error (.file ⟨.notFound, .nothing⟩) w) ∧
    ∀ loc, w.disk.Traced start loc →
      (maxPath < (pathAt loc).toString.utf8ByteSize →
        find start w = .error (.file (.on .nameTooLong (pathAt loc))) w) ∧
      ((pathAt loc).toString.utf8ByteSize ≤ maxPath →
        (∃ dir r, Nearest w.disk.tree loc dir ∧
          load ⟨.slash, dir⟩ w = Action.ofExcept id r w ∧
          find start w = Action.ofExcept id (r.map (⟨.slash, dir⟩, ·)) w) ∨
        (∀ dir, dir <+: loc → fileAt w.disk.tree dir = none) ∧
          find start w = .error (.manifest (.noneAbove ⟨.slash, loc⟩)) w) ∧
      ∀ w', w'.disk.Traced start loc →
        w'.host.room.reads .manifest = w.host.room.reads .manifest →
        (∀ dir, dir <+: loc → fileAt w'.disk.tree dir = fileAt w.disk.tree dir) →
        ∃ r, find start w = Action.ofExcept id r w ∧ find start w' = Action.ofExcept id r w' := by
  intro start
  have hdot : "." ∉ start.parts := by
    simp [start, Path.ofString]
  refine ⟨fun hs hrel hlost => ?_, fun loc h => ⟨find_of_long h hdot, fun hlen => ?_,
    fun w' h' hroom hfiles => ?_⟩⟩
  · exact Action.bind_of_error (Action.ask_of_error (Disk.resolve_of_lost hs hrel hlost))
  · obtain ⟨dir, hdir, -⟩ | ⟨hnone, -⟩ := nearest?_upward (h.resolve hdot).1 hlen
    · obtain ⟨bs, hbs⟩ := Option.ne_none_iff_exists'.mp hdir.holds
      obtain ⟨hload, hfind⟩ := find_of_nearest h hdot hlen hdir hbs
      exact .inl ⟨dir, _, hdir, hload, hfind⟩
    · exact .inr ⟨hnone, find_of_none h hdot hlen hnone⟩
  · rcases Nat.lt_or_ge maxPath (pathAt loc).toString.utf8ByteSize with hlong | hlen
    · exact ⟨.error _, find_of_long h hdot hlong, find_of_long h' hdot hlong⟩
    · obtain ⟨dir, hdir, -⟩ | ⟨hnone, -⟩ := nearest?_upward (h.resolve hdot).1 hlen
      · obtain ⟨bs, hbs⟩ := Option.ne_none_iff_exists'.mp hdir.holds
        have hbs' : fileAt w'.disk.tree dir = some bs := (hfiles dir hdir.above).trans hbs
        have hheld : held w' dir bs = held w dir bs := by rw [held, held, hroom]
        refine ⟨_, (find_of_nearest h hdot hlen hdir hbs).2, ?_⟩
        rw [← hheld]
        exact (find_of_nearest h' hdot hlen (hdir.congr hfiles) hbs').2
      · have hnone' : ∀ dir, dir <+: loc → fileAt w'.disk.tree dir = none :=
          fun dir hdir => (hfiles dir hdir).trans (hnone dir hdir)
        exact ⟨.error _, find_of_none h hdot hlen hnone, find_of_none h' hdot hlen hnone'⟩

/-! ## Samples -/

namespace NearestSample

/-- The bytes of a manifest that can be loaded. -/
def bytes : List UInt8 := Text.Utf8.encode "\x7b\"name\": \"p\"\x7d".toList

/-- The world with the given tree, in which manifests may be nested one level deep. -/
def world (disk : Disk) : World where
  disk
  env := { home := none, configHome := none, searchPath := none }
  tools := fun _ _ d => ⟨d.tree, .error .notFound⟩
  host := ⟨"", "", "", .ofDepths 1 1⟩

/-- The tree with nothing but the manifest at the root. -/
def root : Tree := .ofList [([fileName], .file bytes false)]

/-- The manifest at the root can be loaded, whatever else there is. -/
theorem exists_load_root {d : Disk} (h : d.tree.get? [fileName] = some (.file bytes false)) :
    ∃ m, load ⟨.slash, []⟩ (world d) = .ok m (world d) := by
  have hbytes : (ofBytes 1 (pathAt []) bytes).toBool = true := by decide +kernel
  have hfile : fileAt d.tree [] = some bytes := by
    rw [fileAt, List.nil_append, h]
    rfl
  have hload := @load_of_fileAt (world d) [] bytes rfl (by decide +kernel) hfile
  have hheld : held (world d) [] bytes = ofBytes 1 (pathAt []) bytes := rfl
  rw [hheld] at hload
  cases hm : ofBytes 1 (pathAt []) bytes with
  | error e =>
      rw [hm] at hbytes
      cases hbytes
  | ok m =>
      rw [hm] at hload
      exact ⟨m, hload⟩

/-- Puts directories into a tree, each into the one before. -/
def addChain (t : Tree) (loc : Location) : List String → Tree
  | [] => t
  | n :: ns => addChain (t.insert (loc ++ [n]) .directory) (loc ++ [n]) ns

theorem isDirectory_addChain {t : Tree} {loc : Location} {ns : List String}
    (h : t.isDirectory loc = true) (hns : ∀ n ∈ ns, Tree.isName n = true) :
    (addChain t loc ns).isDirectory (loc ++ ns) = true := by
  induction ns generalizing t loc with
  | nil => rwa [addChain, List.append_nil]
  | cons n ns ih =>
      obtain ⟨hn, hns⟩ := List.forall_mem_cons.mp hns
      have happend : loc ++ n :: ns = loc ++ [n] ++ ns := List.append_cons loc n ns
      rw [addChain, happend]
      refine ih ?_ hns
      rw [Tree.isDirectory, Tree.get?_insert (Tree.admits_directory h hn), if_pos rfl]
      rfl

theorem get?_addChain {t : Tree} {loc l : Location} {ns : List String} {n : String} (hl : n ∈ l)
    (hloc : n ∉ loc) (hns : n ∉ ns) : (addChain t loc ns).get? l = t.get? l := by
  induction ns generalizing t loc with
  | nil => rfl
  | cons m ns ih =>
      obtain ⟨hm, hns⟩ := List.ne_and_not_mem_of_not_mem_cons hns
      have hnext : n ∉ loc ++ [m] := by simp [hloc, hm]
      rw [addChain, ih hnext hns, Tree.get?_insert_of_ne]
      rintro rfl
      exact hnext hl

/-- A directory below one whose manifest cannot be read, with a directory in place of its own. -/
def below : World :=
  world ⟨.ofList [([fileName], .file bytes false), (["p"], .directory),
    (["p", fileName], .file [0x5b] false), (["p", "q"], .directory),
    (["p", "q", fileName], .directory)], ⟨["p", "q"], 0⟩, by decide +kernel⟩

theorem traced_below : below.disk.Traced (.ofString "../q/.") ["p", "q"] :=
  ⟨.inr rfl, rfl, rfl⟩

theorem nearest_below : Nearest below.disk.tree ["p", "q"] ["p"] where
  above := ⟨["q"], rfl⟩
  holds := Option.some_ne_none [0x5b]
  below l hl hlt := by
    rw [hl.eq_of_length (Nat.le_antisymm hl.length_le hlt)]
    rfl

/-- The location of a directory whose manifest file would have too long a path. -/
def deep : Location := List.replicate 410 "directory"

theorem long_pathAt_deep : maxPath < (pathAt deep).toString.utf8ByteSize := by
  rw [pathAt, Path.utf8ByteSize_child_slash, deep, List.map_replicate]
  decide +kernel

theorem isName_deep : ∀ n ∈ deep, Tree.isName n = true := by
  intro n hn
  rw [List.eq_of_mem_replicate hn]
  decide

/-- The disk with the manifest at the root and a working directory as deep as the given names. -/
def chainDisk (loc : Location) (h : ∀ n ∈ loc, Tree.isName n = true) : Disk :=
  ⟨addChain root [] loc, ⟨loc, 0⟩, @isDirectory_addChain _ [] _ rfl h⟩

theorem traced_chainDisk {loc : Location} (h : ∀ n ∈ loc, Tree.isName n = true) :
    (chainDisk loc h).Traced (.ofString ".") loc := by
  have hdot : Path.ofString "." = ⟨.relative, []⟩ := by decide +kernel
  have hspell : Disk.Spellable ⟨.relative, []⟩ := ⟨by decide, by decide⟩
  rw [hdot]
  refine ⟨.inr rfl, Disk.stat_eq_ok_iff.mpr ⟨hspell, trivial, ?_⟩, rfl⟩
  exact decide_eq_true_eq.mp (chainDisk loc h).settled

theorem get?_chainDisk {loc : Location} (h : ∀ n ∈ loc, Tree.isName n = true)
    (hname : fileName ∉ loc) :
    (chainDisk loc h).tree.get? [fileName] = some (.file bytes false) :=
  @get?_addChain _ [] _ _ _ List.mem_cons_self (by simp) hname

end NearestSample

open NearestSample in
/-- A manifest that cannot be read hides one further up, and a directory of that name does not. -/
theorem find_uses_nearest_sample :
    below.disk.Traced (.ofString "../q/.") ["p", "q"] ∧
      (∃ m, load ⟨.slash, []⟩ below = .ok m below) ∧
      ∃ f, load ⟨.slash, ["p"]⟩ below = .error f below ∧
        find (.ofString "../q/.") below = .error f below := by
  refine ⟨traced_below, exists_load_root rfl, ?_⟩
  obtain ⟨-, hfind⟩ := find_uses_nearest "../q/." below
  obtain ⟨-, hsearch, -⟩ := hfind ["p", "q"] traced_below
  obtain ⟨dir, r, hdir, hload, hresult⟩ | ⟨hnone, -⟩ := hsearch (by decide +kernel)
  · cases hdir.unique nearest_below
    have hfails : (load ⟨.slash, ["p"]⟩).value? below = none := by decide +kernel
    cases r with
    | ok m =>
        rw [Action.value?, hload] at hfails
        cases hfails
    | error f => exact ⟨f, hload, hresult⟩
  · exact absurd (hnone ["p"] nearest_below.above) nearest_below.holds

open NearestSample in
/-- A start so deep that its manifest file would have too long a path hides the manifest at the
root, and so does one that is given from a removed working directory. -/
theorem refused_start_hides_manifest :
    let w := world (chainDisk deep isName_deep)
    let w' := world ⟨root, ⟨[], 1⟩, rfl⟩
    (∃ m, w.disk.Traced (.ofString ".") deep ∧ load ⟨.slash, []⟩ w = .ok m w ∧
      find (.ofString ".") w = .error (.file (.on .nameTooLong (pathAt deep))) w) ∧
    ∃ m, w'.disk.stat (.ofString "..") = .ok .directory ∧ load ⟨.slash, []⟩ w' = .ok m w' ∧
      find (.ofString "..") w' = .error (.file ⟨.notFound, .nothing⟩) w' := by
  intro w w'
  constructor
  · have hname : fileName ∉ deep := fun hmem => absurd (List.eq_of_mem_replicate hmem) (by decide)
    obtain ⟨m, hload⟩ := exists_load_root (get?_chainDisk isName_deep hname)
    have htraced := traced_chainDisk isName_deep
    have hdot : "." ∉ (Path.ofString ".").parts := by decide +kernel
    exact ⟨m, htraced, hload, find_of_long htraced hdot long_pathAt_deep⟩
  · obtain ⟨m, hload⟩ := exists_load_root (d := w'.disk) rfl
    refine ⟨m, rfl, hload, Action.bind_of_error (Action.ask_of_error ?_)⟩
    exact Disk.resolve_of_lost rfl rfl (by decide)

end Manifest

end SketchBuild
