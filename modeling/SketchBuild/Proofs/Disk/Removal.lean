import SketchBuild.Proofs.Disk.Outside

/-! # Removing a directory

A directory that is removed goes with all that is below it. The removal may stop half way: what is
below goes first, and the path of the directory may lead through that, or end in `..`. So what can
be said in all cases is that all below the directory is gone, that nothing elsewhere has changed,
and that something is gone (`exists_gone_of_removeTree`). -/

namespace SketchBuild

namespace Disk

variable {d : Disk} {p : Path} {l : Location}

theorem lost_target_of_isAbsolute (h : p.isAbsolute = true) : (d.target p).lost = 0 :=
  Place.lost_along (by rw [origin, if_pos h]) p.parts

theorem get?_target (habs : p.isAbsolute = true) {e : Entry} (hs : d.stat p = .ok e) :
    d.tree.get? (d.target p).loc = some e :=
  get?_of_stat hs (lost_target_of_isAbsolute habs)

/-- The disk on which everything below the directory at `p` has been removed. -/
def emptied (d : Disk) (p : Path) : Disk := d.withTree (d.tree.eraseBelow (d.target p).loc)

/-- Only a directory is removed. -/
theorem removeTree_of_stat_ne (h : d.stat p ≠ .ok .directory) : (d.removeTree p).2 = d := by
  rw [removeTree]
  rw [stat] at h
  split
  · rfl
  · next place hlocate =>
      rw [hlocate] at h
      split
      · rfl
      · rfl
      · next hdir => simp [hdir] at h

/-- The directory is removed after all that is below it, unless its path has become unusable or
does not end in its name. -/
theorem removeTree_cases (habs : p.isAbsolute = true) (hs : d.stat p = .ok .directory) :
    (d.removeTree p).2.tree = (d.emptied p).tree.erase (d.target p).loc ∨
      (d.removeTree p).2.tree = (d.emptied p).tree ∧
        ((∃ r, (d.emptied p).stat p = .error r) ∨ p.name = ".." ∨ p.parts = []) := by
  obtain ⟨hspell, hpass, hdir⟩ := stat_eq_ok_iff.mp hs
  rw [removeTree, locate_eq_ok_iff.mpr ⟨hspell, hpass, rfl⟩]
  dsimp only
  rw [hdir]
  dsimp only
  rw [if_pos (lost_target_of_isAbsolute habs)]
  split
  · next r hstat => exact .inr ⟨rfl, .inl ⟨r, hstat⟩⟩
  · split
    · next hname => exact .inr ⟨rfl, .inr (.inl hname)⟩
    · split
      · next hparts => exact .inr ⟨rfl, .inr (.inr hparts)⟩
      · exact .inl rfl

/-- Nothing is below the directory any more. -/
theorem get?_removeTree_below (habs : p.isAbsolute = true) (hs : d.stat p = .ok .directory)
    (hl : (d.target p).loc <+: l) (hne : l ≠ (d.target p).loc) :
    (d.removeTree p).2.tree.get? l = none := by
  have hempty : (d.emptied p).tree.get? l = none := by
    show (d.tree.eraseBelow _).get? l = none
    rw [Tree.get?_eraseBelow, if_pos ⟨hl, hne⟩]
  obtain htree | ⟨htree, -⟩ := removeTree_cases habs hs
  · rw [htree, Tree.get?_erase]
    split
    · rfl
    · exact hempty
  · rw [htree, hempty]

/-- Elsewhere all stays as it is. -/
theorem get?_removeTree_elsewhere (habs : p.isAbsolute = true)
    (hs : d.stat p = .ok .directory) (hl : ¬ (d.target p).loc <+: l) :
    (d.removeTree p).2.tree.get? l = d.tree.get? l := by
  have hempty : (d.emptied p).tree.get? l = d.tree.get? l := by
    show (d.tree.eraseBelow _).get? l = _
    rw [Tree.get?_eraseBelow, if_neg fun h => hl h.1]
  obtain htree | ⟨htree, -⟩ := removeTree_cases habs hs
  · rw [htree, Tree.get?_erase, if_neg fun h => hl h.2, hempty]
  · rw [htree, hempty]

/-- With nothing below the directory, its path stays usable. -/
theorem stat_emptied (hs : d.stat p = .ok .directory)
    (hbelow : ∀ l, (d.target p).loc <+: l → l ≠ (d.target p).loc → d.tree.get? l = none) :
    (d.emptied p).stat p = .ok .directory := by
  have hget : ∀ l, (d.emptied p).tree.get? l = d.tree.get? l := by
    intro l
    show (d.tree.eraseBelow _).get? l = _
    rw [Tree.get?_eraseBelow]
    split
    · next h => exact (hbelow l h.1 h.2).symm
    · rfl
  have hcwd : (d.emptied p).cwd = d.cwd := by
    refine Place.settle_eq_self ?_
    show decide ((d.emptied p).tree.get? d.cwd.loc = some .directory) = true
    rw [hget]
    exact d.settled
  have hsame : Same d (d.emptied p) := ⟨hcwd, hget⟩
  exact hsame.stat_eq_ok_iff.mpr hs

/-- A path that ends in `..` passes through an entry of the directory that it leads to. -/
theorem exists_below_of_name_eq (habs : p.isAbsolute = true) (hs : d.stat p = .ok .directory)
    (hname : p.name = "..") (hne : (d.target p).loc ≠ []) :
    ∃ n, d.tree.get? ((d.target p).loc ++ [n]) = some .directory := by
  obtain ⟨-, hpass, -⟩ := stat_eq_ok_iff.mp hs
  rcases List.eq_nil_or_concat p.parts with hparts | ⟨ns, n, hparts⟩
  · rw [Path.name, hparts] at hname
    exact absurd hname (by decide)
  · rw [List.concat_eq_append] at hparts
    obtain rfl : n = ".." := by simpa [Path.name, hparts] using hname
    rw [hparts, passable_append] at hpass
    have hlost : ((d.origin p).along ns).lost = 0 :=
      Place.lost_along (by rw [origin, if_pos habs]) ns
    have hdir : d.tree.get? ((d.origin p).along ns).loc = some .directory := by
      have h := hpass.2.1
      rwa [Place.occupant?, if_pos hlost] at h
    have htarget : (d.target p).loc = ((d.origin p).along ns).loc.dropLast := by
      rw [target, hparts, Place.along_append]
      show (((d.origin p).along ns).parent).loc = _
      rw [Place.parent, hlost]
    rw [htarget] at hne ⊢
    have hloc : ((d.origin p).along ns).loc ≠ [] := by
      intro h
      rw [h] at hne
      exact hne rfl
    refine ⟨((d.origin p).along ns).loc.getLast hloc, ?_⟩
    rw [List.dropLast_append_getLast]
    exact hdir

/-- Something is gone, be it the directory or what was below it. -/
theorem exists_gone_of_removeTree (habs : p.isAbsolute = true) (hs : d.stat p = .ok .directory)
    (hne : (d.target p).loc ≠ []) :
    ∃ l, (d.target p).loc <+: l ∧ (∃ e, d.tree.get? l = some e) ∧
      (d.removeTree p).2.tree.get? l = none := by
  by_cases hbelow : ∃ l e, (d.target p).loc <+: l ∧ l ≠ (d.target p).loc ∧ d.tree.get? l = some e
  · obtain ⟨l, e, hl, hnel, he⟩ := hbelow
    exact ⟨l, hl, ⟨e, he⟩, get?_removeTree_below habs hs hl hnel⟩
  · have hnone : ∀ l, (d.target p).loc <+: l → l ≠ (d.target p).loc → d.tree.get? l = none := by
      intro l hl hnel
      cases he : d.tree.get? l with
      | none => rfl
      | some e => exact absurd ⟨l, e, hl, hnel, he⟩ hbelow
    refine ⟨(d.target p).loc, List.prefix_refl _, ⟨_, get?_target habs hs⟩, ?_⟩
    obtain htree | ⟨-, ⟨r, hr⟩ | hname | hparts⟩ := removeTree_cases habs hs
    · rw [htree, Tree.get?_erase, if_pos ⟨hne, List.prefix_refl _⟩]
    · cases hr.symm.trans (stat_emptied hs hnone)
    · obtain ⟨n, hn⟩ := exists_below_of_name_eq habs hs hname hne
      cases hn.symm.trans (hnone _ (List.prefix_append _ _) (by simp))
    · refine absurd ?_ hne
      rw [target, origin, if_pos habs, hparts]
      rfl

end Disk

end SketchBuild
