import SketchBuild.Proofs.Disk.Change
import SketchBuild.Proofs.Disk.Listing

/-! # Changes confined to one directory

Writing and removing files of one directory leaves every directory where it is and everything
outside as it was. So the same paths lead to the same places, and a path that does not lead to one
of these files finds what it found before. -/

namespace SketchBuild

/-! ## Trees -/

/-- `t'` differs from `t` only in files directly below `loc` whose names satisfy `P`. -/
structure Tree.Confined (loc : Location) (P : String → Prop) (t t' : Tree) : Prop where
  get : ∀ l, (∀ n, P n → l ≠ loc ++ [n]) → t'.get? l = t.get? l
  directory : ∀ l, t'.get? l = some .directory ↔ t.get? l = some .directory
  names : ∀ l, l ≠ loc → t'.childNames l = t.childNames l

namespace Tree.Confined

variable {loc : Location} {P Q : String → Prop} {t t' t'' : Tree}

theorem refl (loc : Location) (P : String → Prop) (t : Tree) : Confined loc P t t :=
  ⟨fun _ _ => rfl, fun _ => Iff.rfl, fun _ _ => rfl⟩

theorem mono (h : Confined loc P t t') (hPQ : ∀ n, P n → Q n) : Confined loc Q t t' :=
  ⟨fun l hl => h.get l fun n hn => hl n (hPQ n hn), h.directory, h.names⟩

theorem trans (h : Confined loc P t t') (h' : Confined loc P t' t'') : Confined loc P t t'' where
  get l hl := (h'.get l hl).trans (h.get l hl)
  directory l := (h'.directory l).trans (h.directory l)
  names l hl := (h'.names l hl).trans (h.names l hl)

/-- Locations right below different ones differ. -/
theorem append_singleton_ne {l l' : Location} (h : l ≠ l') (n m : String) :
    l ++ [n] ≠ l' ++ [m] := by
  intro heq
  exact h (List.append_inj' heq rfl).1

theorem insert {n : String} {c : List UInt8} {x : Bool} (hn : P n)
    (h : t.get? (loc ++ [n]) ≠ some .directory) :
    Confined loc P t (t.insert (loc ++ [n]) (.file c x)) where
  get l hl := get?_insert_of_ne t _ (hl n hn)
  directory l := by
    by_cases hl : l = loc ++ [n]
    · rw [hl]
      refine iff_of_false (fun hdir => ?_) h
      by_cases ha : t.admits (loc ++ [n]) (.file c x) = true
      · rw [get?_insert ha, if_pos rfl] at hdir
        cases hdir
      · rw [Tree.insert, dif_neg ha] at hdir
        exact h hdir
    · rw [get?_insert_of_ne t _ hl]
  names l hl := childNames_insert fun m => append_singleton_ne (Ne.symm hl) n m

theorem eraseFile {n : String} {c : List UInt8} {x : Bool} (hn : P n)
    (h : t.get? (loc ++ [n]) = some (.file c x)) :
    Confined loc P t (t.eraseFile (loc ++ [n])) where
  get l hl := by rw [get?_eraseFile (isFile_iff.mpr ⟨c, x, h⟩), if_neg (hl n hn)]
  directory l := by
    rw [get?_eraseFile (isFile_iff.mpr ⟨c, x, h⟩)]
    split
    · next hl => simp [hl, h]
    · rfl
  names l hl := childNames_eraseFile fun m => append_singleton_ne (Ne.symm hl) n m

theorem occupant?_directory (h : Confined loc P t t') (p : Place) :
    p.occupant? t' = some .directory ↔ p.occupant? t = some .directory := by
  rw [Place.occupant?, Place.occupant?]
  split
  · exact h.directory p.loc
  · exact Iff.rfl

theorem passable_iff (h : Confined loc P t t') {p : Place} {ns : List String} :
    Disk.Passable t' p ns ↔ Disk.Passable t p ns :=
  ⟨fun hp => hp.congr fun q _ hq => (h.occupant?_directory q).mp hq,
    fun hp => hp.congr fun q _ hq => (h.occupant?_directory q).mpr hq⟩

theorem occupant?_eq (h : Confined loc P t t') {p : Place}
    (hp : ∀ n, P n → p.loc ≠ loc ++ [n]) : p.occupant? t' = p.occupant? t := by
  rw [Place.occupant?, Place.occupant?, h.get p.loc hp]

end Tree.Confined

/-! ## Disks -/

namespace Disk

/-- The content of the file that a path leads to. -/
def content? (d : Disk) (p : Path) : Option (List UInt8) := (d.readFile p).toOption

theorem content?_eq_some_iff {d : Disk} {p : Path} {c : List UInt8} :
    d.content? p = some c ↔ ∃ x, d.stat p = .ok (.file c x) := by
  rw [← readFile_eq_ok_iff, content?]
  cases d.readFile p <;> simp [Except.toOption]

/-- `d'` differs from `d` only in files directly below `loc` whose names satisfy `P`. -/
structure Confined (loc : Location) (P : String → Prop) (d d' : Disk) : Prop where
  cwd : d'.cwd = d.cwd
  tree : Tree.Confined loc P d.tree d'.tree

namespace Confined

variable {loc : Location} {P Q : String → Prop} {d d' d'' : Disk}

theorem refl (loc : Location) (P : String → Prop) (d : Disk) : Confined loc P d d :=
  ⟨rfl, .refl loc P d.tree⟩

theorem mono (h : Confined loc P d d') (hPQ : ∀ n, P n → Q n) : Confined loc Q d d' :=
  ⟨h.cwd, h.tree.mono hPQ⟩

theorem trans (h : Confined loc P d d') (h' : Confined loc P d' d'') : Confined loc P d d'' :=
  ⟨h'.cwd.trans h.cwd, h.tree.trans h'.tree⟩

theorem stat_eq_ok_iff (h : Confined loc P d d') {p : Path} {e : Entry}
    (hp : ∀ n, P n → (d.target p).loc ≠ loc ++ [n]) :
    d'.stat p = .ok e ↔ d.stat p = .ok e := by
  rw [Disk.stat_eq_ok_iff, Disk.stat_eq_ok_iff, origin_of_cwd h.cwd, target_of_cwd h.cwd,
    h.tree.passable_iff, h.tree.occupant?_eq hp]

theorem stat_directory_iff (h : Confined loc P d d') {p : Path} :
    d'.stat p = .ok .directory ↔ d.stat p = .ok .directory := by
  rw [Disk.stat_eq_ok_iff, Disk.stat_eq_ok_iff, origin_of_cwd h.cwd, target_of_cwd h.cwd,
    h.tree.passable_iff, h.tree.occupant?_directory]

/-- Other directories list what they listed before. -/
theorem list_eq (h : Confined loc P d d') {dir : Path} (hs : d.stat dir = .ok .directory)
    (hdir : (d.target dir).loc ≠ loc) (suffix : String) :
    d'.list dir suffix = d.list dir suffix := by
  rw [list_of_stat hs, list_of_stat (h.stat_directory_iff.mpr hs), target_of_cwd h.cwd,
    Place.childNames, Place.childNames, h.tree.names _ hdir]

theorem content?_eq (h : Confined loc P d d') {p : Path}
    (hp : ∀ n, P n → (d.target p).loc ≠ loc ++ [n]) : d'.content? p = d.content? p := by
  apply Option.ext
  intro c
  rw [content?_eq_some_iff, content?_eq_some_iff]
  simp only [h.stat_eq_ok_iff hp]

end Confined

/-! ## Files of a directory -/

section Files

variable {d d' : Disk} {dir : Path} {n : String}

theorem writeFile_child_confined {c : List UInt8} (h : d.writeFile (dir.child n) c = .ok d')
    (h1 : n ≠ ".") (h2 : n ≠ "..") : Confined (d.target dir).loc (· = n) d d' := by
  obtain ⟨-, -, hne, rfl⟩ := writeFile_eq_ok_iff.mp h
  rw [target_child h1 h2] at hne ⊢
  exact ⟨rfl, .insert rfl hne⟩

theorem removeFile_child_confined (h : d.removeFile (dir.child n) = .ok d') (h1 : n ≠ ".")
    (h2 : n ≠ "..") : Confined (d.target dir).loc (· = n) d d' := by
  obtain ⟨-, -, ⟨c, x, he⟩, rfl⟩ := removeFile_eq_ok_iff.mp h
  rw [target_child h1 h2] at he ⊢
  exact ⟨rfl, .eraseFile rfl he⟩

theorem get?_of_removeFile_child (h : d.removeFile (dir.child n) = .ok d') (h1 : n ≠ ".")
    (h2 : n ≠ "..") : d'.tree.get? ((d.target dir).loc ++ [n]) = none := by
  obtain ⟨-, -, ⟨c, x, he⟩, rfl⟩ := removeFile_eq_ok_iff.mp h
  rw [target_child h1 h2] at he ⊢
  show (d.tree.eraseFile _).get? _ = none
  rw [Tree.get?_eraseFile (Tree.isFile_iff.mpr ⟨c, x, he⟩), if_pos rfl]

/-- The tree that such a change gives is the disk's own: the working directory stays. -/
theorem withTree_of_cwd (h : d'.cwd = d.cwd) : d.withTree d'.tree = d' := by
  have hs := d'.settled
  rw [h] at hs
  obtain ⟨t, cwd, settled⟩ := d'
  obtain rfl : cwd = d.cwd := h
  simp only [withTree, Place.settle_eq_self hs]

end Files

/-! ## Disks that look the same -/

/-- Everything stands on `d'` as it stands on `d`. -/
structure Same (d d' : Disk) : Prop where
  cwd : d'.cwd = d.cwd
  get : ∀ l, d'.tree.get? l = d.tree.get? l

namespace Same

variable {d d' d'' : Disk}

theorem refl (d : Disk) : Same d d := ⟨rfl, fun _ => rfl⟩

theorem trans (h : Same d d') (h' : Same d' d'') : Same d d'' :=
  ⟨h'.cwd.trans h.cwd, fun l => (h'.get l).trans (h.get l)⟩

theorem occupant?_eq (h : Same d d') (p : Place) : p.occupant? d'.tree = p.occupant? d.tree := by
  rw [Place.occupant?, Place.occupant?, h.get]

theorem stat_eq_ok_iff (h : Same d d') {p : Path} {e : Entry} :
    d'.stat p = .ok e ↔ d.stat p = .ok e := by
  have hpass : ∀ {q ns}, Passable d'.tree q ns ↔ Passable d.tree q ns := by
    intro q ns
    constructor
    · exact fun hp => hp.congr fun v _ hv => (h.occupant?_eq v).symm.trans hv
    · exact fun hp => hp.congr fun v _ hv => (h.occupant?_eq v).trans hv
  rw [Disk.stat_eq_ok_iff, Disk.stat_eq_ok_iff, origin_of_cwd h.cwd, target_of_cwd h.cwd, hpass,
    h.occupant?_eq]

theorem content?_eq (h : Same d d') (p : Path) : d'.content? p = d.content? p := by
  apply Option.ext
  intro c
  rw [content?_eq_some_iff, content?_eq_some_iff]
  simp only [h.stat_eq_ok_iff]

end Same

/-- Writing a file as it is already changes nothing. -/
theorem writeFile_of_stat {d : Disk} {p : Path} {c : List UInt8} {x : Bool}
    (h : d.stat p = .ok (.file c x)) : ∃ d', d.writeFile p c = .ok d' ∧ Same d d' := by
  obtain ⟨hs, hp, he⟩ := stat_eq_ok_iff.mp h
  refine ⟨_, writeFile_eq_ok_iff.mpr ⟨hs, hp, by simp [he], rfl⟩, rfl, fun l => ?_⟩
  have h0 : (d.target p).lost = 0 :=
    Place.lost_eq_zero_of_occupant?_ne (t := d.tree) (by simp [he])
  have hget : d.tree.get? (d.target p).loc = some (.file c x) := by
    rwa [Place.occupant?, if_pos h0] at he
  show (d.tree.insert _ _).get? l = _
  rw [Tree.get?_insert (admits_target hs hp (by simp [he]) _), he]
  split
  · next hl => rw [hl, hget, Entry.mark]
  · rfl

end Disk

end SketchBuild
