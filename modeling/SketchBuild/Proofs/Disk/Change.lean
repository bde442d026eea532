import SketchBuild.Proofs.Disk.Walk

/-! # What changes on a disk

One lemma for each operation that changes a disk, told through the view `Tree.get?`. Making a path
only adds directories, and only at places that the path visits. Writing and removing a file changes
one location. None of them moves the working directory. -/

namespace SketchBuild

/-- The executable mark of what may be a file. -/
def Entry.mark : Option Entry → Bool
  | some (.file _ x) => x
  | _ => false

namespace Tree

/-- `t'` holds all that `t` holds, and perhaps new directories at some of the places `ps`. -/
def MadeAt (ps : List Place) (t t' : Tree) : Prop :=
  ∀ l, t'.get? l = t.get? l ∨ t.get? l = none ∧ t'.get? l = some .directory ∧ ⟨l, 0⟩ ∈ ps

namespace MadeAt

variable {ps qs : List Place} {t t' t'' : Tree}

theorem refl (ps : List Place) (t : Tree) : MadeAt ps t t := fun _ => Or.inl rfl

theorem mono (h : MadeAt ps t t') (hs : ps ⊆ qs) : MadeAt qs t t' := by
  intro l
  rcases h l with h | ⟨hn, hd, hm⟩
  · exact Or.inl h
  · exact Or.inr ⟨hn, hd, hs hm⟩

theorem trans (h : MadeAt ps t t') (h' : MadeAt ps t' t'') : MadeAt ps t t'' := by
  intro l
  rcases h l with h1 | ⟨hn, hd, hm⟩
  · rcases h' l with h2 | ⟨hn, hd, hm⟩
    · exact Or.inl (h2.trans h1)
    · exact Or.inr ⟨h1 ▸ hn, hd, hm⟩
  · rcases h' l with h2 | ⟨hn', -, -⟩
    · exact Or.inr ⟨hn, h2.trans hd, hm⟩
    · rw [hn'] at hd
      cases hd

theorem get?_eq_some (h : MadeAt ps t t') {l : Location} {e : Entry} (he : t.get? l = some e) :
    t'.get? l = some e := by
  rcases h l with h | ⟨hn, -, -⟩
  · rw [h, he]
  · rw [hn] at he
    cases he

theorem occupant?_eq_some (h : MadeAt ps t t') {p : Place} {e : Entry}
    (he : p.occupant? t = some e) : p.occupant? t' = some e := by
  rw [Place.occupant?] at he ⊢
  split at he
  · next h0 =>
      rw [if_pos h0]
      exact h.get?_eq_some he
  · next h0 => rw [if_neg h0, he]

theorem passable (h : MadeAt ps t t') {p : Place} {ns : List String} (hp : Disk.Passable t p ns) :
    Disk.Passable t' p ns :=
  hp.congr fun _ _ hd => h.occupant?_eq_some hd

end MadeAt

end Tree

namespace Disk

/-! ## Making directories -/

/-- `d'` is `d` with the directory `p`, for which nothing but directories on its way was made. -/
structure Made (d : Disk) (p : Path) (d' : Disk) : Prop where
  cwd : d'.cwd = d.cwd
  tree : Tree.MadeAt ((d.origin p).visits p.parts) d.tree d'.tree
  stat : d'.stat p = .ok .directory

theorem origin_of_cwd {d d' : Disk} (h : d'.cwd = d.cwd) (p : Path) : d'.origin p = d.origin p := by
  rw [origin, origin, h]

theorem target_of_cwd {d d' : Disk} (h : d'.cwd = d.cwd) (p : Path) : d'.target p = d.target p := by
  rw [target, target, origin_of_cwd h]

theorem Made.refl {d : Disk} {p : Path} (h : d.stat p = .ok .directory) : Made d p d :=
  ⟨rfl, .refl _ _, h⟩

/-- Making a directory leaves what a path leads to. -/
theorem Made.stat_eq_ok {d d' : Disk} {p q : Path} {e : Entry} (h : Made d p d')
    (hq : d.stat q = .ok e) : d'.stat q = .ok e := by
  obtain ⟨hs, hp, he⟩ := stat_eq_ok_iff.mp hq
  rw [← origin_of_cwd h.cwd] at hp
  rw [← target_of_cwd h.cwd] at he
  exact stat_eq_ok_iff.mpr ⟨hs, h.tree.passable hp, h.tree.occupant?_eq_some he⟩

theorem makeDirectory_made {d d' : Disk} {p : Path} (h : d.makeDirectory p = .ok d') :
    Made d p d' := by
  rw [makeDirectory] at h
  cases hl : d.locate p with
  | error r =>
      rw [hl] at h
      cases h
  | ok q =>
      obtain ⟨hs, hp, rfl⟩ := locate_eq_ok_iff.mp hl
      cases he : (d.target p).occupant? d.tree with
      | some e => simp [hl, he] at h
      | none =>
          have h0 : (d.target p).lost = 0 :=
            Place.lost_eq_zero_of_occupant?_ne (t := d.tree) (by simp [he])
          have hg : d.tree.get? (d.target p).loc = none := by simpa [Place.occupant?, h0] using he
          have hadmits := admits_target hs hp (by simp [he]) .directory
          -- the one new directory is the place that the path visits last
          have htree : Tree.MadeAt ((d.origin p).visits p.parts) d.tree
              (d.tree.insert (d.target p).loc .directory) := by
            intro l
            rw [Tree.get?_insert hadmits]
            split
            · next heq =>
                rw [heq, ← h0]
                exact Or.inr ⟨hg, rfl, Place.along_mem_visits _ _⟩
            · exact Or.inl rfl
          obtain rfl : d' = d.insert (d.target p).loc .directory := by
            simpa [hl, he] using h.symm
          refine ⟨rfl, htree, stat_eq_ok_iff.mpr ⟨hs, htree.passable hp, ?_⟩⟩
          show (d.target p).occupant? (d.tree.insert (d.target p).loc .directory) = _
          rw [Place.occupant?, if_pos h0, Tree.get?_insert hadmits, if_pos rfl]

theorem ensureDirectory_made {d d' : Disk} {p : Path} (h : d.ensureDirectory p = .ok d') :
    Made d p d' := by
  rw [ensureDirectory] at h
  split at h
  · next hm =>
      cases h
      exact makeDirectory_made hm
  · cases h
  · cases h
  · split at h
    · cases h
    · next hd =>
        cases h
        exact .refl (isDirectory?_eq_true_iff.mp hd)
    · cases h

theorem Made.of_parent {d d₁ d₂ : Disk} {p : Path} (h₁ : Made d p.parent d₁)
    (h₂ : Made d₁ p d₂) : Made d p d₂ := by
  refine ⟨h₂.cwd.trans h₁.cwd, ?_, h₂.stat⟩
  have ho : d₁.origin p = d.origin p := origin_of_cwd h₁.cwd p
  refine (h₁.tree.mono ?_).trans (ho ▸ h₂.tree)
  exact Place.visits_dropLast_subset (d.origin p) p.parts

/-- One attempt at a time: the directory itself, else the one above it and then itself. -/
theorem ensureDirectories_made {depth : Nat} {d d' : Disk} {p : Path}
    (h : ensureDirectories depth p d = (none, d')) : Made d p d' := by
  induction depth generalizing p d d' with
  | zero =>
      rw [ensureDirectories] at h
      split at h
      · next he =>
          cases h
          exact ensureDirectory_made he
      · cases h
  | succ depth ih =>
      rw [ensureDirectories] at h
      split at h
      · next he =>
          cases h
          exact ensureDirectory_made he
      · split at h
        · split at h
          · cases h
          · next hp =>
              -- the directory above was missing and has been made
              split at h
              · next he =>
                  cases h
                  exact (ih hp).of_parent (ensureDirectory_made he)
              · cases h
        · cases h

/-- **Making a path** that succeeds makes directories along it and nothing else. -/
theorem makePath_made {d d' : Disk} {p : Path} (h : d.makePath p = (none, d')) : Made d p d' :=
  ensureDirectories_made h

theorem ensureDirectory_of_stat {d : Disk} {p : Path} (h : d.stat p = .ok .directory) :
    d.ensureDirectory p = .ok d := by
  obtain ⟨hs, hp, he⟩ := stat_eq_ok_iff.mp h
  have hm : d.makeDirectory p = .error .alreadyExists := by
    simp [makeDirectory, locate_eq_ok_iff.mpr ⟨hs, hp, rfl⟩, he]
  simp [ensureDirectory, hm, isDirectory?_eq_true_iff.mpr h]

/-- A path that is there already is made by doing nothing. -/
theorem makePath_of_stat {d : Disk} {p : Path} (h : d.stat p = .ok .directory) :
    d.makePath p = (none, d) := by
  rw [makePath]
  cases p.parts.length <;> simp [ensureDirectories, ensureDirectory_of_stat h]

/-! ## Files -/

theorem writeFile_eq_ok_iff {d d' : Disk} {p : Path} {c : List UInt8} :
    d.writeFile p c = .ok d' ↔
      Spellable p ∧ Passable d.tree (d.origin p) p.parts ∧
        (d.target p).occupant? d.tree ≠ some .directory ∧
        d' = d.insert (d.target p).loc
          (.file c (Entry.mark ((d.target p).occupant? d.tree))) := by
  rw [writeFile]
  cases hl : d.locate p with
  | error r =>
      simp only [reduceCtorEq, false_iff]
      rintro ⟨hs, hp, -⟩
      rw [locate_eq_ok_iff.mpr ⟨hs, hp, rfl⟩] at hl
      cases hl
  | ok q =>
      obtain ⟨hs, hp, rfl⟩ := locate_eq_ok_iff.mp hl
      cases he : (d.target p).occupant? d.tree with
      | none => simp [he, hs, hp, Entry.mark, eq_comm]
      | some e => cases e <;> simp [he, hs, hp, Entry.mark, eq_comm]

/-- A file can be written wherever a path leads, unless to a directory. -/
theorem exists_writeFile_iff {d : Disk} {p : Path} {c : List UInt8} :
    (∃ d', d.writeFile p c = .ok d') ↔
      ∃ q, d.locate p = .ok q ∧ q.occupant? d.tree ≠ some .directory := by
  simp only [writeFile_eq_ok_iff, locate_eq_ok_iff]
  constructor
  · rintro ⟨d', hs, hp, hne, -⟩
    exact ⟨_, ⟨hs, hp, rfl⟩, hne⟩
  · rintro ⟨q, ⟨hs, hp, rfl⟩, hne⟩
    exact ⟨_, hs, hp, hne, rfl⟩

/-- Writing a file blocks no way that was open. -/
theorem passable_insert_file {t : Tree} {p q : Place} {ns : List String} {c : List UInt8}
    {x : Bool} (h : Passable t p ns) (hq : q.occupant? t ≠ some .directory) :
    Passable (t.insert q.loc (.file c x)) p ns := by
  have h0 : q.lost = 0 := Place.lost_eq_zero_of_occupant?_ne hq
  rw [Place.occupant?, if_pos h0] at hq
  refine h.congr fun v _ hv => ?_
  rw [Place.occupant?] at hv ⊢
  split at hv
  · next hv0 =>
      have hne : v.loc ≠ q.loc := by
        intro heq
        rw [heq] at hv
        exact hq hv
      rw [if_pos hv0, Tree.get?_insert_of_ne _ _ hne, hv]
  · next hv0 => rw [if_neg hv0]

/-- A file that was written is there. -/
theorem stat_of_writeFile {d d' : Disk} {p : Path} {c : List UInt8}
    (h : d.writeFile p c = .ok d') :
    d'.stat p = .ok (.file c (Entry.mark ((d.target p).occupant? d.tree))) := by
  obtain ⟨hs, hp, hne, rfl⟩ := writeFile_eq_ok_iff.mp h
  refine stat_eq_ok_iff.mpr ⟨hs, passable_insert_file hp hne, ?_⟩
  have h0 : (d.target p).lost = 0 := Place.lost_eq_zero_of_occupant?_ne hne
  show (d.target p).occupant? (d.tree.insert _ _) = _
  rw [Place.occupant?, if_pos h0, Tree.get?_insert (admits_target hs hp hne _), if_pos rfl]

/-- Writing a file leaves all directories. -/
theorem stat_directory_of_writeFile {d d' : Disk} {p q : Path} {c : List UInt8}
    (h : d.writeFile p c = .ok d') (hq : d.stat q = .ok .directory) :
    d'.stat q = .ok .directory := by
  obtain ⟨-, -, hne, rfl⟩ := writeFile_eq_ok_iff.mp h
  obtain ⟨hs, hp, he⟩ := stat_eq_ok_iff.mp hq
  -- a walk that goes one step further, and stays where it is, needs the directory at its end
  have hstay : Passable d.tree (d.origin q) (q.parts ++ ["."]) :=
    passable_append.mpr ⟨hp, he, .inl rfl, trivial⟩
  obtain ⟨hp', he', -⟩ := passable_append.mp (passable_insert_file hstay hne)
  exact stat_eq_ok_iff.mpr ⟨hs, hp', he'⟩

theorem readFile_eq_ok_iff {d : Disk} {p : Path} {c : List UInt8} :
    d.readFile p = .ok c ↔ ∃ x, d.stat p = .ok (.file c x) := by
  rw [readFile]
  cases d.stat p with
  | error r => simp
  | ok e => cases e <;> simp

theorem removeFile_eq_ok_iff {d d' : Disk} {p : Path} :
    d.removeFile p = .ok d' ↔
      Spellable p ∧ Passable d.tree (d.origin p) p.parts ∧
        (∃ c x, (d.target p).occupant? d.tree = some (.file c x)) ∧
        d' = d.eraseFile (d.target p).loc := by
  rw [removeFile]
  cases hl : d.locate p with
  | error r =>
      simp only [reduceCtorEq, false_iff]
      rintro ⟨hs, hp, -⟩
      rw [locate_eq_ok_iff.mpr ⟨hs, hp, rfl⟩] at hl
      cases hl
  | ok q =>
      obtain ⟨hs, hp, rfl⟩ := locate_eq_ok_iff.mp hl
      cases he : (d.target p).occupant? d.tree with
      | none => simp [he]
      | some e => cases e <;> simp [he, hs, hp, eq_comm]

/-! ## Entries of a directory -/

@[simp] theorem origin_child (d : Disk) (dir : Path) (n : String) :
    d.origin (dir.child n) = d.origin dir := rfl

theorem target_child {d : Disk} {dir : Path} {n : String} (h : n ≠ ".") (h' : n ≠ "..") :
    d.target (dir.child n) = ⟨(d.target dir).loc ++ [n], 0⟩ := by
  show (d.origin dir).along (dir.parts ++ [n]) = _
  rw [Place.along_append, Place.along_cons, Place.along_nil, Place.next_eq_child h h']
  rfl

theorem passable_child {d : Disk} {t : Tree} {dir : Path} {n : String} :
    Passable t (d.origin (dir.child n)) (dir.child n).parts ↔
      Passable t (d.origin dir) dir.parts ∧
        (d.target dir).occupant? t = some .directory ∧ (d.target dir).Takes n := by
  show Passable t (d.origin dir) (dir.parts ++ [n]) ↔ _
  rw [passable_append]
  simp [Passable, target]

/-- Making an entry of a directory that is there changes nothing else. -/
theorem Made.get?_of_ne {d d' : Disk} {dir : Path} {n : String} (h : Made d (dir.child n) d')
    (h1 : n ≠ ".") (h2 : n ≠ "..") (hp : Passable d.tree (d.origin dir) dir.parts)
    (he : (d.target dir).occupant? d.tree = some .directory) {l : Location}
    (hl : l ≠ (d.target dir).loc ++ [n]) : d'.tree.get? l = d.tree.get? l := by
  rcases h.tree l with hsame | ⟨hnone, -, hmem⟩
  · exact hsame
  · rw [origin_child] at hmem
    change _ ∈ (d.origin dir).visits (dir.parts ++ [n]) at hmem
    rw [Place.visits_append_singleton, Place.next_eq_child h1 h2] at hmem
    rcases List.mem_append.mp hmem with hmem | hmem
    · have hthere := hp.occupant?_visits he _ hmem
      rw [Place.occupant?_mk_zero, hnone] at hthere
      cases hthere
    · rw [List.mem_singleton, Place.mk.injEq] at hmem
      exact absurd hmem.1 hl

/-- A path to an entry with a proper name passes through a directory that was not removed. -/
theorem lost_eq_zero_of_takes {p : Place} {n : String} (h : p.Takes n) (h1 : n ≠ ".")
    (h2 : n ≠ "..") : p.lost = 0 := by
  rcases h with h | h | h
  · exact absurd h h1
  · exact absurd h h2
  · exact h.1

/-- What a path to an entry of a directory leads to stands below the directory. -/
theorem get?_of_stat_child {d : Disk} {dir : Path} {n : String} {e : Entry}
    (h : d.stat (dir.child n) = .ok e) (h1 : n ≠ ".") (h2 : n ≠ "..") :
    (d.target dir).lost = 0 ∧ d.tree.get? ((d.target dir).loc ++ [n]) = some e := by
  obtain ⟨-, hp, he⟩ := stat_eq_ok_iff.mp h
  rw [target_child h1 h2, Place.occupant?_mk_zero] at he
  exact ⟨lost_eq_zero_of_takes (passable_child.mp hp).2.2 h1 h2, he⟩

end Disk

end SketchBuild
