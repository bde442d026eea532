import SketchBuild.Proofs.Disk.Change
import SketchBuild.Proofs.Disk.Listing

/-! # Why paths are refused

A walk is refused for three reasons only: something is missing, something is no directory, or a name
is too long. The last depends on the path alone, so a path that once led somewhere is never refused
for it (`WellNamed`). From this follows which questions and operations can fail, and why. -/

namespace SketchBuild.Disk

/-! ## Walking -/

/-- A name that no directory can hold. -/
def LongName (n : String) : Prop := n ≠ "." ∧ n ≠ ".." ∧ maxName < n.utf8ByteSize

theorem not_longName_of_takes {p : Place} {n : String} (h : p.Takes n) : ¬ LongName n := by
  rintro ⟨h1, h2, hlong⟩
  rcases h with h | h | ⟨-, h⟩
  · exact h1 h
  · exact h2 h
  · omega

theorem Passable.not_longName {t : Tree} {p : Place} {ns : List String} (h : Passable t p ns) :
    ∀ n ∈ ns, ¬ LongName n := by
  induction ns generalizing p with
  | nil => simp
  | cons n ns ih =>
      obtain ⟨-, htakes, hrest⟩ := h
      exact List.forall_mem_cons.mpr ⟨not_longName_of_takes htakes, ih hrest⟩

theorem walk_eq_error {t : Tree} {p : Place} {ns : List String} {r : Refusal}
    (h : walk t p ns = .error r) :
    r = .notFound ∨ r = .notDirectory ∨ r = .nameTooLong ∧ ∃ n ∈ ns, LongName n := by
  induction ns generalizing p with
  | nil => cases h
  | cons n ns ih =>
      have hrest : ∀ {q : Place}, walk t q ns = .error r →
          r = .notFound ∨ r = .notDirectory ∨ r = .nameTooLong ∧ ∃ m ∈ n :: ns, LongName m := by
        intro q hq
        rcases ih hq with h | h | ⟨h, m, hm, hlong⟩
        · exact .inl h
        · exact .inr (.inl h)
        · exact .inr (.inr ⟨h, m, List.mem_cons_of_mem n hm, hlong⟩)
      rw [walk] at h
      split at h
      · exact .inl (Except.error.inj h).symm
      · exact .inr (.inl (Except.error.inj h).symm)
      · split at h
        · exact hrest h
        · next h1 =>
            split at h
            · exact hrest h
            · next h2 =>
                split at h
                · exact .inl (Except.error.inj h).symm
                · split at h
                  · next hlong =>
                      exact .inr (.inr ⟨(Except.error.inj h).symm, n, List.mem_cons_self,
                        h1, h2, hlong⟩)
                  · exact hrest h

/-! ## Locating -/

/-- The system takes the text of the path and each of its names. -/
structure WellNamed (p : Path) : Prop where
  spellable : Spellable p
  names : ∀ n ∈ p.parts, ¬ LongName n

theorem wellNamed_of_stat {d : Disk} {p : Path} {e : Entry} (h : d.stat p = .ok e) :
    WellNamed p := by
  obtain ⟨hs, hp, -⟩ := stat_eq_ok_iff.mp h
  exact ⟨hs, hp.not_longName⟩

/-- What is well named is refused only for what the disk holds. -/
theorem WellNamed.locate_eq_error {d : Disk} {p : Path} {r : Refusal} (hp : WellNamed p)
    (h : d.locate p = .error r) : r = .notFound ∨ r = .notDirectory := by
  obtain ⟨⟨hnull, hlen⟩, hnames⟩ := hp
  rw [locate, follow, if_neg (by simp [hnull]), if_neg (by omega)] at h
  rcases walk_eq_error h with h | h | ⟨-, n, hn, hlong⟩
  · exact .inl h
  · exact .inr h
  · exact absurd hlong (hnames n hn)

theorem locate_eq_error_cases {d : Disk} {p : Path} {r : Refusal} (h : d.locate p = .error r) :
    r = .notFound ∨ r = .notDirectory ∨ r = .nameTooLong ∨
      r = .nullCharacter ∧ hasNull p.toString = true := by
  rw [locate, follow] at h
  split at h
  · next hnull => exact .inr (.inr (.inr ⟨(Except.error.inj h).symm, hnull⟩))
  · split at h
    · exact .inr (.inr (.inl (Except.error.inj h).symm))
    · rcases walk_eq_error h with h | h | ⟨h, -⟩
      · exact .inl h
      · exact .inr (.inl h)
      · exact .inr (.inr (.inl h))

/-- A way that is open is refused only for the text of the path. -/
theorem Passable.locate_eq_error {d : Disk} {p : Path} {r : Refusal}
    (hp : Passable d.tree (d.origin p) p.parts) (h : d.locate p = .error r) :
    ¬ Spellable p ∧ (r = .nullCharacter ∨ r = .nameTooLong) := by
  refine ⟨fun hs => ?_, ?_⟩
  · cases h.symm.trans (locate_eq_ok_iff.mpr ⟨hs, hp, rfl⟩)
  · rw [locate, follow] at h
    split at h
    · exact .inl (Except.error.inj h).symm
    · split at h
      · exact .inr (Except.error.inj h).symm
      · cases h.symm.trans (walk_eq_ok_iff.mpr ⟨hp, rfl⟩)

theorem locate_of_hasNull {p : Path} (h : hasNull p.toString = true) (d : Disk) :
    d.locate p = .error .nullCharacter := by
  rw [locate, follow, if_pos h]

theorem stat_of_locate_error {d : Disk} {p : Path} {r : Refusal} (h : d.locate p = .error r) :
    d.stat p = .error r := by
  rw [stat, h]

/-! ## Questions -/

/-- A question about a path is refused only for a name or text that is too long. -/
theorem ask_eq_error_iff {d : Disk} {p : Path} {answer : Entry → Bool} {e : FileError} :
    d.ask p answer = .error e ↔ d.locate p = .error .nameTooLong ∧ e = .on .nameTooLong p := by
  cases hl : d.locate p with
  | ok q =>
      rw [ask, stat, hl]
      dsimp only
      cases q.occupant? d.tree <;> simp
  | error r =>
      rw [ask, stat_of_locate_error hl]
      rcases locate_eq_error_cases hl with rfl | rfl | rfl | ⟨rfl, -⟩ <;> simp [eq_comm]

/-- A listing is refused only for a name or text that is too long. -/
theorem list_eq_error_iff {d : Disk} {dir : Path} {suffix : String} {e : FileError} :
    d.list dir suffix = .error e ↔
      d.locate dir = .error .nameTooLong ∧ e = .on .nameTooLong dir := by
  rw [list]
  cases hd : d.isDirectory? dir with
  | error e' =>
      obtain ⟨hl, rfl⟩ := ask_eq_error_iff.mp hd
      simp [hl, eq_comm]
  | ok there =>
      have hok : ¬ d.locate dir = .error .nameTooLong := by
        intro hl
        cases hd.symm.trans (ask_eq_error_iff.mpr ⟨hl, rfl⟩)
      cases there with
      | false => simp [hok]
      | true =>
          obtain ⟨hspell, hp, -⟩ := stat_eq_ok_iff.mp (isDirectory?_eq_true_iff.mp hd)
          simp [locate_eq_ok_iff.mpr ⟨hspell, hp, rfl⟩]

theorem WellNamed.exists_isDirectory? {p : Path} (h : WellNamed p) (d : Disk) :
    ∃ there, d.isDirectory? p = .ok there := by
  cases hd : d.isDirectory? p with
  | ok there => exact ⟨there, rfl⟩
  | error e =>
      obtain ⟨hlocate, -⟩ := ask_eq_error_iff.mp hd
      rcases h.locate_eq_error hlocate with h | h <;> cases h

/-- What is well named can always be listed. -/
theorem WellNamed.exists_list {dir : Path} (h : WellNamed dir) (d : Disk) (suffix : String) :
    ∃ ps, d.list dir suffix = .ok ps := by
  cases hl : d.list dir suffix with
  | ok ps => exact ⟨ps, rfl⟩
  | error e =>
      obtain ⟨hlocate, -⟩ := list_eq_error_iff.mp hl
      rcases h.locate_eq_error hlocate with h | h <;> cases h

/-! ## Making directories -/

/-- A directory cannot be made where something stands, and where the path does not lead. -/
theorem makeDirectory_eq_error_iff {d : Disk} {p : Path} {r : Refusal} :
    d.makeDirectory p = .error r ↔
      r = .alreadyExists ∧ (∃ e, d.stat p = .ok e) ∨ d.locate p = .error r := by
  rw [makeDirectory, stat]
  cases hl : d.locate p with
  | error r' => simp
  | ok q =>
      dsimp only
      cases q.occupant? d.tree <;> simp [eq_comm]

theorem ensureDirectory_eq_error {d : Disk} {p : Path} {e : FileError}
    (h : d.ensureDirectory p = .error e) :
    d.stat p ≠ .ok .directory ∧ ∃ r, d.makeDirectory p = .error r ∧ e = .on r p := by
  have hstat : d.stat p ≠ .ok .directory := by
    intro hs
    cases h.symm.trans (ensureDirectory_of_stat hs)
  refine ⟨hstat, ?_⟩
  rw [ensureDirectory] at h
  split at h
  · cases h
  · next hm => exact ⟨_, hm, (Except.error.inj h).symm⟩
  · next hm => exact ⟨_, hm, (Except.error.inj h).symm⟩
  · next r _ _ hm =>
      split at h
      · next e' hd =>
          -- what is too long for the question was too long before
          cases h
          obtain ⟨hl, rfl⟩ := ask_eq_error_iff.mp hd
          exact ⟨_, makeDirectory_eq_error_iff.mpr (.inr hl), rfl⟩
      · cases h
      · exact ⟨r, hm, (Except.error.inj h).symm⟩

theorem ensureDirectory_nullCharacter_iff {d : Disk} {p : Path} {e : FileError}
    (h : d.ensureDirectory p = .error e) :
    e.refusal = .nullCharacter ↔ hasNull p.toString = true := by
  obtain ⟨-, r, hm, rfl⟩ := ensureDirectory_eq_error h
  constructor
  · intro hr
    rcases makeDirectory_eq_error_iff.mp hm with ⟨rfl, -⟩ | hl
    · cases hr
    · obtain rfl : r = .nullCharacter := hr
      rcases locate_eq_error_cases hl with h | h | h | ⟨-, hnull⟩
      · cases h
      · cases h
      · cases h
      · exact hnull
  · intro hnull
    have hm' := makeDirectory_eq_error_iff.mpr (.inr (locate_of_hasNull hnull d))
    exact (Except.error.inj (hm.symm.trans hm'))

theorem ensureDirectories_nullCharacter_iff {depth : Nat} {d d' : Disk} {p : Path} {e : FileError}
    (h : ensureDirectories depth p d = (some e, d')) :
    e.refusal = .nullCharacter ↔ hasNull p.toString = true := by
  induction depth generalizing p d d' e with
  | zero =>
      rw [ensureDirectories] at h
      split at h
      · cases h
      · next he =>
          cases h
          exact ensureDirectory_nullCharacter_iff he
  | succ depth ih =>
      rw [ensureDirectories] at h
      split at h
      · cases h
      · next e₁ he =>
          split at h
          · next hmissing =>
              -- a path with the null character is never just missing
              have hp : hasNull p.toString = false := by
                rw [Bool.eq_false_iff]
                intro hnull
                have := (ensureDirectory_nullCharacter_iff he).mpr hnull
                rw [hmissing] at this
                cases this
              split at h
              · next hparent =>
                  cases h
                  have hup : hasNull p.parent.toString = false := by
                    rw [hasNull_toString, List.any_eq_false] at hp ⊢
                    exact fun n hn => hp n (List.dropLast_subset _ hn)
                  rw [ih hparent, hup, hp]
              · split at h
                · cases h
                · next he' =>
                    cases h
                    exact ensureDirectory_nullCharacter_iff he'
          · cases h
            exact ensureDirectory_nullCharacter_iff he

/-- **Making a path is refused for the null character exactly if the path holds one.** -/
theorem makePath_nullCharacter_iff {d d' : Disk} {p : Path} {e : FileError}
    (h : d.makePath p = (some e, d')) :
    e.refusal = .nullCharacter ↔ hasNull p.toString = true :=
  ensureDirectories_nullCharacter_iff h

/-- **An entry of a directory that is there can be made** unless its path is too long or a file
stands in its place. -/
theorem makePath_child_iff {d : Disk} {dir : Path} {n : String}
    (hp : Passable d.tree (d.origin dir) dir.parts)
    (hocc : (d.target dir).occupant? d.tree = some .directory) (h0 : (d.target dir).lost = 0)
    (hlen : n.utf8ByteSize ≤ maxName) :
    (d.makePath (dir.child n)).1 = none ↔
      Spellable (dir.child n) ∧ ∀ c x, d.stat (dir.child n) ≠ .ok (.file c x) := by
  have hpass : Passable d.tree (d.origin (dir.child n)) (dir.child n).parts :=
    passable_child.mpr ⟨hp, hocc, .inr (.inr ⟨h0, hlen⟩)⟩
  rw [makePath, show (dir.child n).parts.length = dir.parts.length + 1 from by simp [Path.child],
    ensureDirectories]
  cases hens : d.ensureDirectory (dir.child n) with
  | ok d' =>
      have hmade := ensureDirectory_made hens
      refine iff_of_true rfl ⟨(wellNamed_of_stat hmade.stat).spellable, fun c x hfile => ?_⟩
      cases (hmade.stat_eq_ok hfile).symm.trans hmade.stat
  | error e =>
      obtain ⟨hdir, r, hm, rfl⟩ := ensureDirectory_eq_error hens
      have hnot : r ≠ .notFound ∧ ¬ (Spellable (dir.child n) ∧
          ∀ c x, d.stat (dir.child n) ≠ .ok (.file c x)) := by
        rcases makeDirectory_eq_error_iff.mp hm with ⟨rfl, e, he⟩ | hl
        · -- what stands there is no directory
          refine ⟨by decide, fun hfree => ?_⟩
          cases e with
          | file c x => exact hfree.2 c x he
          | directory => exact hdir he
        · obtain ⟨hspell, hr⟩ := hpass.locate_eq_error hl
          refine ⟨?_, fun hfree => hspell hfree.1⟩
          rcases hr with rfl | rfl <;> decide
      have hr : (FileError.on r (dir.child n)).refusal ≠ .notFound := hnot.1
      dsimp only
      rw [if_neg hr]
      exact iff_of_false (Option.some_ne_none _) hnot.2

/-! ## Files -/

theorem removeFile_ok_iff {d : Disk} {p : Path} :
    (∃ d', d.removeFile p = .ok d') ↔ ∃ c x, d.stat p = .ok (.file c x) := by
  simp only [removeFile_eq_ok_iff, stat_eq_ok_iff]
  constructor
  · rintro ⟨d', hs, hp, ⟨c, x, he⟩, -⟩
    exact ⟨c, x, hs, hp, he⟩
  · rintro ⟨c, x, hs, hp, he⟩
    exact ⟨_, hs, hp, ⟨c, x, he⟩, rfl⟩

/-- An entry of a directory that is there can be written unless its path is too long or a directory
stands in its place. -/
theorem writeFile_child_ok_iff {d : Disk} {dir : Path} {n : String} {c : List UInt8}
    (hs : d.stat dir = .ok .directory) (h0 : (d.target dir).lost = 0) (h1 : n ≠ ".")
    (h2 : n ≠ "..") :
    (∃ d', d.writeFile (dir.child n) c = .ok d') ↔
      WellNamed (dir.child n) ∧ d.stat (dir.child n) ≠ .ok .directory := by
  obtain ⟨hspell, hp, hocc⟩ := stat_eq_ok_iff.mp hs
  simp only [writeFile_eq_ok_iff]
  constructor
  · rintro ⟨d', hs', hp', hne, -⟩
    exact ⟨⟨hs', hp'.not_longName⟩, fun hdir => hne (stat_eq_ok_iff.mp hdir).2.2⟩
  · rintro ⟨⟨hs', hnames⟩, hne⟩
    have hlen : n.utf8ByteSize ≤ maxName := by
      have := hnames n (by simp [Path.child])
      simpa [LongName, h1, h2] using this
    have hp' : Passable d.tree (d.origin (dir.child n)) (dir.child n).parts :=
      passable_child.mpr ⟨hp, hocc, .inr (.inr ⟨h0, hlen⟩)⟩
    exact ⟨_, hs', hp', fun he => hne (stat_eq_ok_iff.mpr ⟨hs', hp', he⟩), rfl⟩

end SketchBuild.Disk
