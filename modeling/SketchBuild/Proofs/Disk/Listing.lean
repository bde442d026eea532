import Mathlib.Data.List.Sort
import Mathlib.Data.String.Basic
import SketchBuild.Proofs.Disk.Walk

/-! # Listing a directory

A listing shows exactly the entries directly below a location, in code point order. It changes only
when one of these entries is put in or taken out (`Tree.childNames_insert`,
`Tree.childNames_eraseFile`). -/

namespace SketchBuild

namespace Text

/-- The sort is the library's insertion sort, whose lemmas are used from here on. -/
theorem inOrder_eq_insertionSort (ss : List String) :
    inOrder ss = ss.insertionSort (· ≤ ·) := by
  have hins : ∀ (s : String) (ts : List String),
      insertInOrder s ts = ts.orderedInsert (· ≤ ·) s := by
    intro s ts
    induction ts with
    | nil => rfl
    | cons t ts ih => simp [insertInOrder, List.orderedInsert, ih]
  induction ss with
  | nil => rfl
  | cons s ss ih =>
      show insertInOrder s (inOrder ss) = _
      rw [ih, hins, List.insertionSort_cons]

@[simp] theorem mem_inOrder {s : String} {ss : List String} : s ∈ inOrder ss ↔ s ∈ ss := by
  rw [inOrder_eq_insertionSort, List.mem_insertionSort]

theorem pairwise_inOrder (ss : List String) : (inOrder ss).Pairwise (· ≤ ·) := by
  rw [inOrder_eq_insertionSort]
  exact List.pairwise_insertionSort _ _

end Text

namespace Tree

/-- The name of a location directly below another. -/
def nameBelow? (loc l : Location) : Option String :=
  match l.getLast? with
  | some n => if l.dropLast = loc then some n else none
  | none => none

theorem nameBelow?_eq_some_iff {loc l : Location} {n : String} :
    nameBelow? loc l = some n ↔ l = loc ++ [n] := by
  rcases List.eq_nil_or_concat l with rfl | ⟨up, m, rfl⟩
  · simp [nameBelow?]
  · rw [List.concat_eq_append, nameBelow?, List.getLast?_concat, List.dropLast_concat]
    simp only [Option.ite_none_right_eq_some, Option.some.injEq]
    constructor
    · rintro ⟨rfl, rfl⟩
      rfl
    · intro h
      obtain ⟨h1, h2⟩ := List.append_inj' h rfl
      exact ⟨h1, List.singleton_inj.mp h2⟩

theorem nameBelow?_eq_none {loc l : Location} (h : ∀ n, l ≠ loc ++ [n]) :
    nameBelow? loc l = none := by
  rw [Option.eq_none_iff_forall_ne_some]
  intro n hn
  exact h n (nameBelow?_eq_some_iff.mp hn)

theorem childNames_eq (t : Tree) (loc : Location) :
    t.childNames loc = Text.inOrder (t.entries.filterMap fun e => nameBelow? loc e.1) := rfl

theorem pairwise_childNames (t : Tree) (loc : Location) :
    (t.childNames loc).Pairwise (· ≤ ·) :=
  Text.pairwise_inOrder _

/-- No name is listed twice. -/
theorem nodup_childNames (t : Tree) (loc : Location) : (t.childNames loc).Nodup := by
  have hmap : t.entries.filterMap (fun e => nameBelow? loc e.1) =
      (t.entries.map (·.1)).filterMap (nameBelow? loc) := by
    rw [List.filterMap_map]
    rfl
  rw [childNames_eq, Text.inOrder_eq_insertionSort, (List.perm_insertionSort _ _).nodup_iff, hmap]
  refine t.distinct.filterMap fun l l' n hl hl' => ?_
  rw [Option.mem_def, nameBelow?_eq_some_iff] at hl hl'
  rw [hl, hl']

theorem isSome_lookup_iff {es : List (Location × Entry)} {l : Location} :
    (es.lookup l).isSome ↔ ∃ e, (l, e) ∈ es := by
  induction es with
  | nil => simp
  | cons x es ih =>
      obtain ⟨k, y⟩ := x
      by_cases hk : l = k
      · subst hk
        simp
      · have hb : (l == k) = false := beq_eq_false_iff_ne.mpr hk
        simp [List.lookup_cons, hb, hk, ih]

/-- **A listing shows what is there.** -/
theorem mem_childNames {t : Tree} {loc : Location} {n : String} :
    n ∈ t.childNames loc ↔ (t.get? (loc ++ [n])).isSome := by
  rw [childNames_eq, Text.mem_inOrder, get?_eq_lookup t (by simp), isSome_lookup_iff,
    List.mem_filterMap]
  constructor
  · rintro ⟨⟨l, e⟩, hm, hn⟩
    obtain rfl := nameBelow?_eq_some_iff.mp hn
    exact ⟨e, hm⟩
  · rintro ⟨e, hm⟩
    exact ⟨_, hm, nameBelow?_eq_some_iff.mpr rfl⟩

/-- Entries that are not directly below a location do not show in its listing. -/
theorem filterMap_nameBelow?_filter {loc l : Location} (h : ∀ n, l ≠ loc ++ [n])
    (es : List (Location × Entry)) :
    (es.filter (·.1 != l)).filterMap (fun e => nameBelow? loc e.1) =
      es.filterMap fun e => nameBelow? loc e.1 := by
  rw [List.filterMap_filter]
  congr 1
  funext e
  by_cases he : e.1 = l
  · simp [he, nameBelow?_eq_none h]
  · simp [he]

theorem childNames_eraseFile {t : Tree} {loc l : Location} (h : ∀ n, l ≠ loc ++ [n]) :
    (t.eraseFile l).childNames loc = t.childNames loc := by
  rw [eraseFile]
  split
  · rw [childNames_eq, childNames_eq, filterMap_nameBelow?_filter h]
  · rfl

theorem childNames_insert {t : Tree} {loc l : Location} {e : Entry} (h : ∀ n, l ≠ loc ++ [n]) :
    (t.insert l e).childNames loc = t.childNames loc := by
  rw [insert]
  split
  · rw [childNames_eq, childNames_eq]
    simp only [List.filterMap_cons, nameBelow?_eq_none h, filterMap_nameBelow?_filter h]
  · rfl

end Tree

namespace Disk

theorem list_of_stat {d : Disk} {dir : Path} (h : d.stat dir = .ok .directory) (suffix : String) :
    d.list dir suffix =
      .ok ((((d.target dir).childNames d.tree).filter (Text.endsWith · suffix)).map dir.child) := by
  obtain ⟨hs, hp, -⟩ := stat_eq_ok_iff.mp h
  rw [list, isDirectory?_eq_true_iff.mpr h, locate_eq_ok_iff.mpr ⟨hs, hp, rfl⟩]

/-- No name is listed twice. -/
theorem nodup_childNames (t : Tree) (p : Place) : (p.childNames t).Nodup := by
  rw [Place.childNames]
  split
  · exact Tree.nodup_childNames t p.loc
  · exact .nil

/-- The names in a directory are listed in order. -/
theorem pairwise_childNames (t : Tree) (p : Place) : (p.childNames t).Pairwise (· ≤ ·) := by
  rw [Place.childNames]
  split
  · exact Tree.pairwise_childNames t p.loc
  · exact .nil

/-- A name in a directory is the whole listing, if nothing else ends like it. -/
theorem list_eq_singleton {d : Disk} {dir : Path} {n suffix : String}
    (hs : d.stat dir = .ok .directory) (hn : Text.endsWith n suffix = true)
    (hthere : n ∈ (d.target dir).childNames d.tree)
    (honly : ∀ m ∈ (d.target dir).childNames d.tree, Text.endsWith m suffix = true → m = n) :
    d.list dir suffix = .ok [dir.child n] := by
  have hnames : ((d.target dir).childNames d.tree).filter (Text.endsWith · suffix) = [n] := by
    have hnodup := (nodup_childNames d.tree (d.target dir)).filter (Text.endsWith · suffix)
    refine List.perm_singleton.mp
      ((List.perm_ext_iff_of_nodup hnodup (List.nodup_singleton n)).mpr fun m => ?_)
    rw [List.mem_filter, List.mem_singleton]
    constructor
    · rintro ⟨hm, hends⟩
      exact honly m hm hends
    · rintro rfl
      exact ⟨hthere, hn⟩
  rw [list_of_stat hs, hnames]
  rfl

/-- A listing that shows something is that of a directory. -/
theorem stat_of_mem_list {d : Disk} {dir p : Path} {suffix : String} {ps : List Path}
    (h : d.list dir suffix = .ok ps) (hp : p ∈ ps) : d.stat dir = .ok .directory := by
  rw [list] at h
  cases hd : d.isDirectory? dir with
  | error e =>
      rw [hd] at h
      cases h
  | ok there =>
      cases there with
      | false =>
          rw [hd] at h
          cases h
          cases hp
      | true => exact isDirectory?_eq_true_iff.mp hd

/-- What stands in a listing, told by the tree. -/
theorem mem_list_iff {d : Disk} {dir p : Path} {suffix : String} {ps : List Path}
    (h : d.list dir suffix = .ok ps) :
    p ∈ ps ↔ d.stat dir = .ok .directory ∧ (d.target dir).lost = 0 ∧
      ∃ n, Text.endsWith n suffix = true ∧
        (d.tree.get? ((d.target dir).loc ++ [n])).isSome ∧ p = dir.child n := by
  constructor
  · intro hp
    have hs := stat_of_mem_list h hp
    rw [list_of_stat hs] at h
    cases h
    obtain ⟨n, hn, rfl⟩ := List.mem_map.mp hp
    obtain ⟨hn, he⟩ := List.mem_filter.mp hn
    rw [Place.childNames] at hn
    split at hn
    · next hl => exact ⟨hs, hl, n, he, Tree.mem_childNames.mp hn, rfl⟩
    · cases hn
  · rintro ⟨hs, hl, n, he, hn, rfl⟩
    rw [list_of_stat hs] at h
    cases h
    refine List.mem_map.mpr ⟨n, List.mem_filter.mpr ⟨?_, he⟩, rfl⟩
    rw [Place.childNames, if_pos hl]
    exact Tree.mem_childNames.mpr hn

/-- The names in a directory that end in `suffix` are exactly `names`. -/
def Holds (d : Disk) (dir : Path) (suffix : String) (names : List String) : Prop :=
  ∃ ps, d.list dir suffix = .ok ps ∧ ∀ n, n ∈ ps.map Path.name ↔ n ∈ names

/-- What a directory holds, told by the tree. -/
theorem holds_iff {d : Disk} {dir : Path} (hs : d.stat dir = .ok .directory)
    (h0 : (d.target dir).lost = 0) {suffix : String} {names : List String} :
    d.Holds dir suffix names ↔
      ∀ n, Text.endsWith n suffix = true ∧
        (d.tree.get? ((d.target dir).loc ++ [n])).isSome = true ↔ n ∈ names := by
  have hmem : ∀ n, n ∈ ((((d.target dir).childNames d.tree).filter
        (Text.endsWith · suffix)).map dir.child).map Path.name ↔
      Text.endsWith n suffix = true ∧
        (d.tree.get? ((d.target dir).loc ++ [n])).isSome = true := by
    intro n
    rw [Place.childNames, if_pos h0]
    simp [Tree.mem_childNames, and_comm]
  rw [Holds, list_of_stat hs]
  constructor
  · rintro ⟨ps, hps, hall⟩ n
    cases hps
    rw [← hmem, hall]
  · intro hall
    exact ⟨_, rfl, fun n => (hmem n).trans (hall n)⟩

end Disk

end SketchBuild
