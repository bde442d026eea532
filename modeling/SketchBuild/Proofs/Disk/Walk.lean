import SketchBuild.Disk.Basic

/-! # Where paths lead

Walking along names either fails or ends at a place that the names alone determine: the tree decides
whether the walk gets through, never where it ends. So one path leads to one place in all trees that
let it through, and a walk is described by two things that are easier to reason about than the
recursion: the place `Place.along` and the condition `Disk.Passable`. -/

namespace SketchBuild

namespace Place

/-- The place that a name leads to. -/
def next (p : Place) (n : String) : Place :=
  if n = "." then p else if n = ".." then p.parent else ⟨p.loc ++ [n], 0⟩

/-- The place that names lead to. -/
def along (p : Place) (ns : List String) : Place := ns.foldl next p

/-- The places on the way, both ends included. -/
def visits (p : Place) : List String → List Place
  | [] => [p]
  | n :: ns => p :: (p.next n).visits ns

/-- Whether a directory at this place can be left by a name. -/
def Takes (p : Place) (n : String) : Prop :=
  n = "." ∨ n = ".." ∨ p.lost = 0 ∧ n.utf8ByteSize ≤ Disk.maxName

theorem next_eq_child {p : Place} {n : String} (h : n ≠ ".") (h' : n ≠ "..") :
    p.next n = ⟨p.loc ++ [n], 0⟩ := by
  rw [next, if_neg h, if_neg h']

@[simp] theorem along_nil (p : Place) : p.along [] = p := rfl

@[simp] theorem along_cons (p : Place) (n : String) (ns : List String) :
    p.along (n :: ns) = (p.next n).along ns := rfl

@[simp] theorem along_append (p : Place) (ns ms : List String) :
    p.along (ns ++ ms) = (p.along ns).along ms :=
  List.foldl_append

theorem visits_append_singleton (p : Place) (ns : List String) (n : String) :
    p.visits (ns ++ [n]) = p.visits ns ++ [(p.along ns).next n] := by
  induction ns generalizing p with
  | nil => rfl
  | cons m ns ih => simp [visits, ih]

theorem along_mem_visits (p : Place) (ns : List String) : p.along ns ∈ p.visits ns := by
  induction ns generalizing p with
  | nil => simp [visits]
  | cons n ns ih => exact List.mem_cons_of_mem _ (ih (p.next n))

/-- A path that stops one name earlier visits nothing new. -/
theorem visits_dropLast_subset (p : Place) (ns : List String) :
    p.visits ns.dropLast ⊆ p.visits ns := by
  rcases List.eq_nil_or_concat ns with rfl | ⟨ms, n, rfl⟩
  · exact List.Subset.refl _
  · rw [List.concat_eq_append, List.dropLast_concat, visits_append_singleton]
    exact List.subset_append_left _ _

@[simp] theorem occupant?_mk_zero (t : Tree) (l : Location) : occupant? t ⟨l, 0⟩ = t.get? l := rfl

/-- Only a place that was not removed can hold anything but a directory. -/
theorem lost_eq_zero_of_occupant?_ne {t : Tree} {p : Place} (h : p.occupant? t ≠ some .directory) :
    p.lost = 0 := by
  rw [occupant?] at h
  split at h
  · assumption
  · exact absurd rfl h

/-- A walk from a place that was not removed never comes to one that was. -/
theorem lost_along {p : Place} (h : p.lost = 0) (ns : List String) :
    (p.along ns).lost = 0 := by
  induction ns generalizing p with
  | nil => exact h
  | cons n ns ih =>
      refine ih ?_
      rw [next]
      split
      · exact h
      · split
        · rw [parent, h]
        · rfl

/-- Names without `..` lead to a place at or below the first. -/
theorem prefix_along (p : Place) {ns : List String} (h : ".." ∉ ns) :
    p.loc <+: (p.along ns).loc := by
  induction ns generalizing p with
  | nil => exact List.prefix_refl _
  | cons n ns ih =>
      obtain ⟨hn, hns⟩ := not_or.mp (mt List.mem_cons.mpr h)
      refine List.IsPrefix.trans ?_ (ih (p.next n) hns)
      rw [next, if_neg (Ne.symm hn)]
      split
      · exact List.prefix_refl _
      · exact List.prefix_append _ _

end Place

namespace Disk

/-! ## Walking -/

/-- The tree lets a walk through: each place before the last is a directory that can be left by the
name that follows. -/
def Passable (t : Tree) : Place → List String → Prop
  | _, [] => True
  | p, n :: ns => p.occupant? t = some .directory ∧ p.Takes n ∧ Passable t (p.next n) ns

theorem walk_eq_ok_iff {t : Tree} {p q : Place} {ns : List String} :
    walk t p ns = .ok q ↔ Passable t p ns ∧ q = p.along ns := by
  induction ns generalizing p with
  | nil => simp [walk, Passable, eq_comm]
  | cons n ns ih =>
      rw [walk, Passable, Place.along_cons]
      cases he : p.occupant? t with
      | none => simp
      | some e =>
          cases e with
          | file c x => simp
          | directory =>
              simp only [true_and, Place.Takes, Place.next]
              -- the name stays at the place, leads up or leads down
              by_cases h1 : n = "."
              · simp [h1, ih]
              · by_cases h2 : n = ".."
                · simp [h2, ih]
                · by_cases h3 : p.lost = 0
                  · by_cases h4 : maxName < n.utf8ByteSize
                    · simp [h1, h2, h3, h4, Nat.not_le_of_lt h4]
                    · simp [h1, h2, h3, h4, ih, Nat.le_of_not_lt h4]
                  · simp [h1, h2, h3]

theorem passable_append {t : Tree} {p : Place} {ns ms : List String} :
    Passable t p (ns ++ ms) ↔ Passable t p ns ∧ Passable t (p.along ns) ms := by
  induction ns generalizing p with
  | nil => simp [Passable]
  | cons n ns ih => simp [Passable, ih, and_assoc]

/-- Whether a walk gets through depends only on the places that it visits. -/
theorem Passable.congr {t t' : Tree} {p : Place} {ns : List String} (h : Passable t p ns)
    (hv : ∀ q ∈ p.visits ns, q.occupant? t = some .directory → q.occupant? t' = some .directory) :
    Passable t' p ns := by
  induction ns generalizing p with
  | nil => trivial
  | cons n ns ih =>
      obtain ⟨hd, ht, hr⟩ := h
      refine ⟨hv p List.mem_cons_self hd, ht, ih hr ?_⟩
      intro q hq
      exact hv q (List.mem_cons_of_mem _ hq)

/-- A walk that gets through to a directory visits directories only. -/
theorem Passable.occupant?_visits {t : Tree} {p : Place} {ns : List String} (h : Passable t p ns)
    (he : (p.along ns).occupant? t = some .directory) :
    ∀ q ∈ p.visits ns, q.occupant? t = some .directory := by
  induction ns generalizing p with
  | nil =>
      intro q hq
      obtain rfl := List.mem_singleton.mp hq
      exact he
  | cons n ns ih =>
      intro q hq
      rcases List.mem_cons.mp hq with rfl | hq
      · exact h.1
      · exact ih h.2.2 he q hq

/-! ## Locating -/

/-- The place at which a path starts. -/
def origin (d : Disk) (p : Path) : Place := if p.isAbsolute then ⟨[], 0⟩ else d.cwd

/-- The place that a path leads to, if anything lets it through. -/
def target (d : Disk) (p : Path) : Place := (d.origin p).along p.parts

/-- Whether the system takes the text of a path. -/
def Spellable (p : Path) : Prop :=
  hasNull p.toString = false ∧ p.toString.utf8ByteSize ≤ maxPath

/-- A path holds the null character where one of its names does. -/
theorem hasNull_toString (p : Path) : hasNull p.toString = p.parts.any hasNull := by
  have hparts : '\x00' ∈ ("/".intercalate p.parts).toList ↔ ∃ n ∈ p.parts, '\x00' ∈ n.toList := by
    rw [String.toList_intercalate, show "/".toList = ['/'] from rfl,
      Text.mem_intercalate_iff (by decide)]
    constructor
    · rintro ⟨f, hf, hnull⟩
      obtain ⟨n, hn, rfl⟩ := List.mem_map.mp hf
      exact ⟨n, hn, hnull⟩
    · rintro ⟨n, hn, hnull⟩
      exact ⟨_, List.mem_map_of_mem hn, hnull⟩
  have hanchor : '\x00' ∉ (Path.anchorText p.anchor).toList := by
    cases p.anchor <;> decide
  rw [Bool.eq_iff_iff, List.any_eq_true]
  simp only [hasNull, List.contains_iff_mem]
  rw [← hparts, Path.toString]
  split
  · next hrel => simp [hrel]
  · rw [String.toList_append, List.mem_append]
    exact or_iff_right hanchor

theorem hasNull_of_mem_parts {p : Path} (h : Spellable p) : ∀ n ∈ p.parts, hasNull n = false := by
  have hnull := h.1
  rw [hasNull_toString, List.any_eq_false] at hnull
  exact fun n hn => Bool.eq_false_iff.mpr (hnull n hn)

theorem locate_eq_ok_iff {d : Disk} {p : Path} {q : Place} :
    d.locate p = .ok q ↔
      Spellable p ∧ Passable d.tree (d.origin p) p.parts ∧ q = d.target p := by
  rw [locate, follow, Spellable, target, ← walk_eq_ok_iff]
  split
  · simp_all
  · split
    · have hlong : ¬ p.toString.utf8ByteSize ≤ maxPath := by omega
      simp [hlong]
    · have hshort : p.toString.utf8ByteSize ≤ maxPath := by omega
      simp_all [origin]

theorem stat_eq_ok_iff {d : Disk} {p : Path} {e : Entry} :
    d.stat p = .ok e ↔
      Spellable p ∧ Passable d.tree (d.origin p) p.parts ∧
        (d.target p).occupant? d.tree = some e := by
  rw [stat]
  cases hl : d.locate p with
  | error r =>
      simp only [reduceCtorEq, false_iff]
      rintro ⟨hs, hp, -⟩
      rw [locate_eq_ok_iff.mpr ⟨hs, hp, rfl⟩] at hl
      cases hl
  | ok q =>
      obtain ⟨hs, hp, rfl⟩ := locate_eq_ok_iff.mp hl
      cases he : (d.target p).occupant? d.tree <;> simp [he, hs, hp]

/-- An absolute path leads to the same place from every working directory. -/
theorem stat_of_isAbsolute {d d' : Disk} {p : Path} (h : p.isAbsolute = true)
    (htree : d'.tree = d.tree) : d'.stat p = d.stat p := by
  simp [stat, locate, follow, h, htree]

theorem target_of_isAbsolute {p : Path} (h : p.isAbsolute = true) (d d' : Disk) :
    d'.target p = d.target p := by
  simp [target, origin, h]

theorem isDirectory?_eq_true_iff {d : Disk} {p : Path} :
    d.isDirectory? p = .ok true ↔ d.stat p = .ok .directory := by
  rw [isDirectory?, ask]
  cases hs : d.stat p with
  | ok e => simp
  | error r => cases r <;> simp

/-! ## Places for new entries -/

theorem isDirectory_parent {t : Tree} {p : Place} (h : t.isDirectory p.loc = true) :
    t.isDirectory p.parent.loc = true := by
  rw [Place.parent]
  split
  · exact Tree.isDirectory_of_prefix (List.dropLast_prefix p.loc) h
  · exact h

theorem isDirectory_next {t : Tree} {p : Place} {n : String} (h : t.isDirectory p.loc = true)
    (he : (p.next n).occupant? t = some .directory) : t.isDirectory (p.next n).loc = true := by
  by_cases h1 : n = "."
  · rw [Place.next, if_pos h1]
    exact h
  · by_cases h2 : n = ".."
    · rw [Place.next, if_neg h1, if_pos h2]
      exact isDirectory_parent h
    · rw [Place.next_eq_child h1 h2] at he ⊢
      exact decide_eq_true he

/-- A walk from a directory of the tree to a directory ends at, or below, a directory of the
tree. -/
theorem isDirectory_along {t : Tree} {p : Place} {ns : List String}
    (h : t.isDirectory p.loc = true) (hp : Passable t p ns)
    (he : (p.along ns).occupant? t = some .directory) :
    t.isDirectory (p.along ns).loc = true := by
  induction ns generalizing p with
  | nil => exact h
  | cons n ns ih =>
      have hnext : (p.next n).occupant? t = some .directory := by
        cases ns with
        | nil => exact he
        | cons m ns => exact hp.2.2.1
      exact ih (isDirectory_next h hnext) hp.2.2 he

theorem isDirectory_origin (d : Disk) (p : Path) : d.tree.isDirectory (d.origin p).loc = true := by
  rw [origin]
  split
  · rfl
  · exact d.settled

theorem occupant?_of_isDirectory {t : Tree} {p : Place} (h : t.isDirectory p.loc = true) :
    p.occupant? t = some .directory := by
  rw [Place.occupant?]
  split
  · exact decide_eq_true_eq.mp h
  · rfl

/-- Where a path leads, an entry can be put, unless there is a directory. -/
theorem admits_target {d : Disk} {p : Path} (hs : Spellable p)
    (hp : Passable d.tree (d.origin p) p.parts)
    (he : (d.target p).occupant? d.tree ≠ some .directory) (e : Entry) :
    d.tree.admits (d.target p).loc e = true := by
  rcases List.eq_nil_or_concat p.parts with hnil | ⟨ns, n, hparts⟩
  · -- the path ends where it starts, at a directory
    rw [target, hnil, Place.along_nil] at he
    exact absurd (occupant?_of_isDirectory (isDirectory_origin d p)) he
  · rw [List.concat_eq_append] at hparts
    rw [hparts, passable_append] at hp
    obtain ⟨hp, hdir, htakes, -⟩ := hp
    have hup := isDirectory_along (isDirectory_origin d p) hp hdir
    have htarget : d.target p = ((d.origin p).along ns).next n := by
      rw [target, hparts, Place.along_append, Place.along_cons, Place.along_nil]
    rw [htarget] at he ⊢
    by_cases h1 : n = "."
    · rw [Place.next, if_pos h1] at he
      exact absurd hdir he
    · by_cases h2 : n = ".."
      · rw [Place.next, if_neg h1, if_pos h2] at he
        exact absurd (occupant?_of_isDirectory (isDirectory_parent hup)) he
      · rw [Place.next_eq_child h1 h2] at he ⊢
        have hlong : n.utf8ByteSize ≤ maxName :=
          ((htakes.resolve_left h1).resolve_left h2).2
        have hnull : hasNull n = false := hasNull_of_mem_parts hs n (by simp [hparts])
        rw [Tree.admits, Bool.and_eq_true]
        refine ⟨Tree.hasPlace_concat.mpr ⟨?_, ?_⟩, ?_⟩
        · simp [Tree.isName, h1, h2, hlong, hnull]
        · by_cases hroot : ((d.origin p).along ns).loc = []
          · exact .inl hroot
          · rw [← Tree.get?_eq_lookup _ hroot]
            exact .inr (decide_eq_true_eq.mp hup)
        · rw [Place.occupant?_mk_zero] at he
          simp [Tree.isDirectory, he]

end Disk

end SketchBuild
