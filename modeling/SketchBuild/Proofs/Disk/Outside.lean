import SketchBuild.Proofs.Disk.Confined

/-! # Disks that agree outside a directory

Two disks may hold anything at a location and below it and agree everywhere else. What they agree on
is what can be read of it by paths that lead elsewhere: the content of a file, and the listing of a
directory. The agreement outlives the making of a directory on both. -/

namespace SketchBuild

/-- The content of a file. -/
def Entry.content? : Entry → Option (List UInt8)
  | .file c _ => some c
  | .directory => none

namespace Disk

/-- `d'` holds what `d` holds, except perhaps at `loc` and below it. -/
structure SameOutside (loc : Location) (d d' : Disk) : Prop where
  cwd : d'.cwd = d.cwd
  get : ∀ l, ¬ loc <+: l → d'.tree.get? l = d.tree.get? l

/-- Every place on the way to a directory is one. -/
theorem get?_of_mem_visits {d : Disk} {p : Path} {l : Location}
    (hs : d.stat p = .ok .directory) (hl : ⟨l, 0⟩ ∈ (d.origin p).visits p.parts) :
    d.tree.get? l = some .directory := by
  obtain ⟨-, hp, he⟩ := stat_eq_ok_iff.mp hs
  exact hp.occupant?_visits he _ hl

theorem get?_of_stat {d : Disk} {p : Path} {e : Entry} (hs : d.stat p = .ok e)
    (h0 : (d.target p).lost = 0) : d.tree.get? (d.target p).loc = some e := by
  obtain ⟨-, -, he⟩ := stat_eq_ok_iff.mp hs
  rwa [Place.occupant?, if_pos h0] at he

namespace SameOutside

variable {loc : Location} {d d' e e' : Disk}

theorem refl (loc : Location) (d : Disk) : SameOutside loc d d := ⟨rfl, fun _ _ => rfl⟩

/-- Something is put in at the location or below it. -/
theorem insert (h : SameOutside loc d d') {l : Location} (hl : loc <+: l) (x : Entry) :
    SameOutside loc d (d'.insert l x) := by
  refine ⟨h.cwd, fun k hk => ?_⟩
  have hkl : k ≠ l := fun heq => hk (heq ▸ hl)
  show (d'.tree.insert l x).get? k = _
  rw [Tree.get?_insert_of_ne _ _ hkl, h.get k hk]

theorem made (h : SameOutside loc d d') {p : Path} (hm : Made d p e) (hm' : Made d' p e') :
    SameOutside loc e e' := by
  refine ⟨hm'.cwd.trans (h.cwd.trans hm.cwd.symm), fun l hl => ?_⟩
  have hv : ∀ {x : Disk}, x.cwd = d.cwd → x.stat p = .ok .directory →
      ⟨l, 0⟩ ∈ (d.origin p).visits p.parts → x.tree.get? l = some .directory := by
    intro x hx hs hmem
    exact get?_of_mem_visits hs (origin_of_cwd hx p ▸ hmem)
  -- what was made on one disk only stood on the other already
  rcases hm.tree l with hsame | ⟨-, hdir, hmem⟩
  · rcases hm'.tree l with hsame' | ⟨-, hdir', hmem'⟩
    · rw [hsame, hsame', h.get l hl]
    · rw [hdir', hv hm.cwd hm.stat (origin_of_cwd h.cwd p ▸ hmem')]
  · rw [hdir, hv (hm'.cwd.trans h.cwd) hm'.stat hmem]

/-- A path that leads elsewhere finds the same content on both disks, if it gets through. -/
theorem content?_eq (h : SameOutside loc d d') {p : Path} (hp : ¬ loc <+: (d.target p).loc)
    (hc : (d.content? p).isSome = true) (hc' : (d'.content? p).isSome = true) :
    d'.content? p = d.content? p := by
  obtain ⟨c, hc⟩ := Option.isSome_iff_exists.mp hc
  obtain ⟨c', hc'⟩ := Option.isSome_iff_exists.mp hc'
  obtain ⟨x, hs⟩ := content?_eq_some_iff.mp hc
  obtain ⟨x', hs'⟩ := content?_eq_some_iff.mp hc'
  obtain ⟨-, -, he⟩ := stat_eq_ok_iff.mp hs
  obtain ⟨-, -, he'⟩ := stat_eq_ok_iff.mp hs'
  rw [target_of_cwd h.cwd, Place.occupant?, h.get _ hp, ← Place.occupant?, he] at he'
  cases he'
  rw [hc, hc']

/-- A directory elsewhere lists the same on both disks, if they agree on `loc` itself. -/
theorem list_eq (h : SameOutside loc d d') (hloc : d'.tree.get? loc = d.tree.get? loc)
    {dir : Path} {suffix : String} {ps ps' : List Path}
    (hdir : ¬ loc <+: (d.target dir).loc)
    (hs : d.stat dir = .ok .directory) (hs' : d'.stat dir = .ok .directory)
    (hps : d.list dir suffix = .ok ps) (hps' : d'.list dir suffix = .ok ps') : ps' = ps := by
  rw [list_of_stat hs] at hps
  rw [list_of_stat hs', target_of_cwd h.cwd] at hps'
  cases hps
  cases hps'
  have hsorted : ∀ t : Tree,
      (((d.target dir).childNames t).filter (Text.endsWith · suffix)).Pairwise (· < ·) := by
    intro t
    exact ((pairwise_childNames t _).imp₂ (fun _ _ => lt_of_le_of_ne)
      (nodup_childNames t _)).filter _
  refine congrArg (List.map dir.child)
    ((hsorted d'.tree).eq_of_mem_iff (hsorted d.tree) fun n => ?_)
  rw [List.mem_filter, List.mem_filter, Place.childNames, Place.childNames]
  split
  · -- an entry of the directory is `loc` or lies elsewhere
    rw [Tree.mem_childNames, Tree.mem_childNames]
    by_cases hn : loc <+: (d.target dir).loc ++ [n]
    · rcases List.prefix_concat_iff.mp hn with heq | hpre
      · rw [← heq, hloc]
      · exact absurd hpre hdir
    · rw [h.get _ hn]
  · exact Iff.rfl

end SameOutside

end Disk

end SketchBuild
