import SketchBuild.Text.Order

/-!
# File trees

A file tree gives each location below the root at most one entry: a file with its bytes or a
directory. A location is the list of names from the root. Every entry has a proper name and stands
in a directory; a tree carries the proof of that, so no operation leads to anything else. The view
of a tree is `get?`; the root itself is always a directory. `get?_insert`, `get?_eraseFile`,
`get?_erase` and `get?_eraseBelow` say what each change does to the view.
-/

namespace SketchBuild

/-- The names that lead from the root to an entry. -/
abbrev Location := List String

/-- What stands at a location. -/
inductive Entry
  | file (content : List UInt8) (executable : Bool)
  | directory
deriving DecidableEq

/-- The longest name of an entry, in bytes. -/
def Disk.maxName : Nat := 255

/-- Whether a text holds the character that no path may hold. -/
def Disk.hasNull (s : String) : Bool := s.toList.contains '\x00'

namespace Tree

/-- Whether an entry may have a name. -/
def isName (n : String) : Bool :=
  n != "." && n != ".." && n.utf8ByteSize ≤ Disk.maxName && !Disk.hasNull n

/-- Whether an entry may stand at a location: under a proper name, in a directory. -/
def hasPlace (es : List (Location × Entry)) (loc : Location) : Bool :=
  match loc.getLast? with
  | none => false
  | some n => isName n && (loc.dropLast.isEmpty || es.lookup loc.dropLast = some .directory)

end Tree

/-- A file tree. -/
structure Tree where
  entries : List (Location × Entry)
  distinct : (entries.map (·.1)).Nodup
  placed : ∀ e ∈ entries, Tree.hasPlace entries e.1 = true

namespace Tree

/-- The tree with nothing but a root. -/
def empty : Tree := ⟨[], .nil, by simp⟩

/-- The entry at a location. -/
def get? (t : Tree) (loc : Location) : Option Entry :=
  if loc.isEmpty then some .directory else t.entries.lookup loc

/-- Whether a location holds a directory. -/
def isDirectory (t : Tree) (loc : Location) : Bool := t.get? loc = some .directory

/-- The names of the entries directly below a location, in code point order. -/
def childNames (t : Tree) (loc : Location) : List String :=
  Text.inOrder (t.entries.filterMap fun (l, _) =>
    match l.getLast? with
    | some n => if l.dropLast = loc then some n else none
    | none => none)

/-! ### Places for entries -/

@[simp] theorem get?_nil (t : Tree) : t.get? [] = some .directory := rfl

theorem get?_eq_lookup (t : Tree) {l : Location} (h : l ≠ []) : t.get? l = t.entries.lookup l := by
  rw [get?, if_neg (by simpa using h)]

/-- Looking up a location among the entries whose locations pass a test. -/
theorem lookup_filter (p : Location → Bool) (es : List (Location × Entry)) (loc : Location) :
    (es.filter (p ·.1)).lookup loc = if p loc then es.lookup loc else none := by
  induction es with
  | nil => simp
  | cons e es ih =>
    obtain ⟨k, x⟩ := e
    by_cases hl : loc = k
    · subst hl
      cases hp : p loc <;> simp [hp, ih]
    · have hb : (loc == k) = false := by simpa using hl
      cases hp : p k <;> simp [hp, List.lookup_cons, hb, ih]

/-- Looking up a location when one entry has taken the place of another. -/
theorem lookup_put {es : List (Location × Entry)} {loc l : Location} {e : Entry} :
    ((loc, e) :: es.filter (·.1 != loc)).lookup l = if l = loc then some e else es.lookup l := by
  rw [List.lookup_cons, lookup_filter (· != loc)]
  by_cases hl : l = loc
  · simp [hl]
  · simp [hl, beq_eq_false_iff_ne.2 hl]

theorem hasPlace_concat {es : List (Location × Entry)} {loc : Location} {n : String} :
    hasPlace es (loc ++ [n]) = true ↔
      isName n = true ∧ (loc = [] ∨ es.lookup loc = some .directory) := by
  simp [hasPlace]

theorem exists_concat_of_hasPlace {es : List (Location × Entry)} {loc : Location}
    (h : hasPlace es loc = true) : ∃ up n, loc = up ++ [n] := by
  rcases List.eq_nil_or_concat loc with rfl | ⟨up, n, rfl⟩
  · cases h
  · exact ⟨up, n, List.concat_eq_append⟩

/-- An entry keeps its place if the one that it stands in stays a directory. -/
theorem hasPlace_of_lookup {es es' : List (Location × Entry)} {loc : Location}
    (h : hasPlace es loc = true)
    (hup : ∀ up n, loc = up ++ [n] → up ≠ [] → es.lookup up = some .directory →
      es'.lookup up = some .directory) : hasPlace es' loc = true := by
  obtain ⟨up, n, rfl⟩ := exists_concat_of_hasPlace h
  obtain ⟨hn, hplace⟩ := hasPlace_concat.mp h
  refine hasPlace_concat.mpr ⟨hn, ?_⟩
  by_cases hnil : up = []
  · exact .inl hnil
  · exact .inr (hup up n rfl hnil (hplace.resolve_left hnil))

/-! ### Changes -/

/-- The entries whose locations pass a test, which has to pass with an entry the one above it. -/
def restrict (t : Tree) (keep : Location → Bool)
    (hup : ∀ up n, up ≠ [] → keep (up ++ [n]) = true → keep up = true) : Tree where
  entries := t.entries.filter (keep ·.1)
  distinct := t.distinct.sublist (List.filter_sublist.map _)
  placed e he := by
    obtain ⟨hmem, hkeep⟩ := List.mem_filter.mp he
    refine hasPlace_of_lookup (t.placed e hmem) fun up n hloc hne hdir => ?_
    rw [lookup_filter keep, if_pos (hup up n hne (hloc ▸ hkeep)), hdir]

/-- Removes everything at and below a location. -/
def erase (t : Tree) (loc : Location) : Tree :=
  t.restrict (fun l => !loc.isPrefixOf l) fun up n _ h => by
    simp only [Bool.not_eq_true', ← Bool.not_eq_true, List.isPrefixOf_iff_prefix] at h ⊢
    exact fun hup => h (hup.trans (List.prefix_append up [n]))

/-- Removes everything strictly below a location. -/
def eraseBelow (t : Tree) (loc : Location) : Tree :=
  t.restrict (fun l => !(loc.isPrefixOf l && l != loc)) fun up n _ h => by
    simp only [Bool.not_eq_true', ← Bool.not_eq_true, Bool.and_eq_true, bne_iff_ne, ne_eq,
      List.isPrefixOf_iff_prefix] at h ⊢
    rintro ⟨hup, -⟩
    refine h ⟨hup.trans (List.prefix_append up [n]), ?_⟩
    rintro rfl
    exact absurd hup.length_le (by simp)

/-- Whether a location holds a file. -/
def isFile (t : Tree) (loc : Location) : Bool :=
  match t.get? loc with
  | some (.file _ _) => true
  | _ => false

/-- Whether an entry may be put at a location. Only a directory may take the place of one. -/
def admits (t : Tree) (loc : Location) (e : Entry) : Bool :=
  hasPlace t.entries loc && (!t.isDirectory loc || e = .directory)

/-- Removes a file. What holds no file stays. -/
def eraseFile (t : Tree) (loc : Location) : Tree :=
  if h : t.isFile loc = true then
    { entries := t.entries.filter (·.1 != loc)
      distinct := t.distinct.sublist (List.filter_sublist.map _)
      placed e he := by
        refine hasPlace_of_lookup (t.placed e (List.mem_filter.mp he).1)
          fun up n _ hne hdir => ?_
        have hup : up ≠ loc := by
          rintro rfl
          rw [isFile, get?_eq_lookup t hne, hdir] at h
          cases h
        rw [lookup_filter (· != loc), if_pos (by simpa using hup), hdir] }
  else t

/-- Puts an entry at a location, if it is admitted there. -/
def insert (t : Tree) (loc : Location) (e : Entry) : Tree :=
  if h : t.admits loc e = true then
    { entries := (loc, e) :: t.entries.filter (·.1 != loc)
      distinct := by
        rw [List.map_cons, List.nodup_cons]
        refine ⟨fun hmem => ?_, t.distinct.sublist (List.filter_sublist.map _)⟩
        obtain ⟨e', he', heq⟩ := List.mem_map.mp hmem
        simpa [heq] using (List.mem_filter.mp he').2
      placed e' he' := by
        rw [admits, Bool.and_eq_true] at h
        rcases List.mem_cons.mp he' with rfl | he'
        · refine hasPlace_of_lookup h.1 fun up n hloc hne hdir => ?_
          have hup : up ≠ loc := by
            intro heq
            simpa [heq] using congrArg List.length hloc
          rw [lookup_put, if_neg hup, hdir]
        · refine hasPlace_of_lookup (t.placed e' (List.mem_filter.mp he').1)
            fun up n _ hne hdir => ?_
          rw [lookup_put]
          split
          · next heq =>
              -- a directory makes way for a directory only
              have hthere : t.isDirectory loc = true := by
                rw [isDirectory, ← heq, get?_eq_lookup t hne, hdir, decide_eq_true_eq]
              have he : e = .directory := by simpa [hthere] using h.2
              rw [he]
          · exact hdir }
  else t

/-- The tree with the given entries, put in one after the other. -/
def ofList (es : List (Location × Entry)) : Tree := es.foldl (fun t e => t.insert e.1 e.2) empty

/-! ### The view -/

theorem ne_nil_of_admits {t : Tree} {loc : Location} {e : Entry} (h : t.admits loc e = true) :
    loc ≠ [] := by
  rintro rfl
  cases h

theorem ne_nil_of_isFile {t : Tree} {loc : Location} (h : t.isFile loc = true) : loc ≠ [] := by
  rintro rfl
  cases h

theorem isFile_iff {t : Tree} {loc : Location} :
    t.isFile loc = true ↔ ∃ c x, t.get? loc = some (.file c x) := by
  rw [isFile]
  split <;> simp_all

theorem get?_insert {t : Tree} {loc : Location} {e : Entry} (h : t.admits loc e = true)
    (l : Location) : (t.insert loc e).get? l = if l = loc then some e else t.get? l := by
  rw [insert, dif_pos h]
  by_cases hn : l = []
  · rw [hn, if_neg (ne_nil_of_admits h).symm, get?_nil, get?_nil]
  · rw [get?_eq_lookup _ hn, get?_eq_lookup _ hn, lookup_put]

/-- Putting in an entry changes nothing elsewhere. -/
theorem get?_insert_of_ne (t : Tree) {loc l : Location} (e : Entry) (h : l ≠ loc) :
    (t.insert loc e).get? l = t.get? l := by
  by_cases ha : t.admits loc e = true
  · rw [get?_insert ha, if_neg h]
  · rw [insert, dif_neg ha]

theorem get?_eraseFile {t : Tree} {loc : Location} (h : t.isFile loc = true) (l : Location) :
    (t.eraseFile loc).get? l = if l = loc then none else t.get? l := by
  rw [eraseFile, dif_pos h]
  by_cases hn : l = []
  · rw [hn, if_neg (ne_nil_of_isFile h).symm, get?_nil, get?_nil]
  · rw [get?_eq_lookup _ hn, get?_eq_lookup _ hn, lookup_filter (· != loc)]
    by_cases hl : l = loc <;> simp [hl]

theorem get?_restrict (t : Tree) {keep : Location → Bool}
    (hup : ∀ up n, up ≠ [] → keep (up ++ [n]) = true → keep up = true) {l : Location}
    (hl : l ≠ []) : (t.restrict keep hup).get? l = if keep l then t.get? l else none := by
  rw [get?_eq_lookup _ hl, get?_eq_lookup _ hl, restrict, lookup_filter keep]

theorem get?_erase (t : Tree) (loc l : Location) :
    (t.erase loc).get? l = if l ≠ [] ∧ loc <+: l then none else t.get? l := by
  by_cases hn : l = []
  · simp [hn]
  · rw [erase, get?_restrict t _ hn]
    simp only [Bool.not_eq_true', ← Bool.not_eq_true, List.isPrefixOf_iff_prefix]
    by_cases hb : loc <+: l <;> simp [hb, hn]

theorem get?_eraseBelow (t : Tree) (loc l : Location) :
    (t.eraseBelow loc).get? l = if loc <+: l ∧ l ≠ loc then none else t.get? l := by
  by_cases hn : l = []
  · subst hn
    rw [get?_nil, get?_nil, if_neg fun ⟨h, hne⟩ => hne (List.prefix_nil.1 h).symm]
  · rw [eraseBelow, get?_restrict t _ hn]
    simp only [Bool.not_eq_true', ← Bool.not_eq_true, Bool.and_eq_true, bne_iff_ne, ne_eq,
      List.isPrefixOf_iff_prefix]
    by_cases hb : loc <+: l <;> by_cases hl : l = loc <;> simp [hb, hl]

/-- Putting in an entry takes no directory away. -/
theorem isDirectory_insert {t : Tree} {l : Location} (h : t.isDirectory l = true)
    (loc : Location) (e : Entry) : (t.insert loc e).isDirectory l = true := by
  by_cases ha : t.admits loc e = true
  · rw [isDirectory, get?_insert ha]
    split
    · next heq =>
        rw [admits, ← heq, h, Bool.and_eq_true] at ha
        simpa using ha.2
    · exact h
  · rwa [insert, dif_neg ha]

/-- Removing a file takes no directory away. -/
theorem isDirectory_eraseFile {t : Tree} {l : Location} (h : t.isDirectory l = true)
    (loc : Location) : (t.eraseFile loc).isDirectory l = true := by
  by_cases hf : t.isFile loc = true
  · rw [isDirectory, get?_eraseFile hf, if_neg]
    · exact h
    · rintro rfl
      obtain ⟨c, x, hget⟩ := isFile_iff.mp hf
      simp [isDirectory, hget] at h
  · rwa [eraseFile, dif_neg hf]

theorem mem_entries_of_get? {t : Tree} {loc : Location} {e : Entry} (h : t.get? loc = some e)
    (hne : loc ≠ []) : (loc, e) ∈ t.entries := by
  rw [get?_eq_lookup t hne] at h
  obtain ⟨before, after, hes, -⟩ := List.lookup_eq_some_iff.mp h
  rw [hes]
  exact List.mem_append_right before List.mem_cons_self

/-- An entry has a proper name and stands in a directory. -/
theorem isName_of_get?_concat {t : Tree} {loc : Location} {n : String} {e : Entry}
    (h : t.get? (loc ++ [n]) = some e) : isName n = true ∧ t.isDirectory loc = true := by
  obtain ⟨hn, hup⟩ := hasPlace_concat.mp (t.placed _ (mem_entries_of_get? h (by simp)))
  refine ⟨hn, ?_⟩
  rw [isDirectory, decide_eq_true_eq]
  by_cases hnil : loc = []
  · rw [hnil, get?_nil]
  · rw [get?_eq_lookup t hnil, hup.resolve_left hnil]

/-- All that an entry stands in is a directory. -/
theorem isDirectory_of_prefix {t : Tree} {l loc : Location} (hl : l <+: loc)
    (h : t.isDirectory loc = true) : t.isDirectory l = true := by
  obtain ⟨rest, rfl⟩ := hl
  induction rest generalizing l with
  | nil => simpa using h
  | cons n rest ih =>
    have hnext : t.isDirectory (l ++ [n]) = true := ih (by simpa using h)
    exact (isName_of_get?_concat (decide_eq_true_eq.mp hnext)).2

/-- All names that lead to a directory are proper. -/
theorem isName_of_mem {t : Tree} {loc : Location} (h : t.isDirectory loc = true) {n : String}
    (hn : n ∈ loc) : isName n = true := by
  obtain ⟨up, rest, rfl⟩ := List.append_of_mem hn
  have hup : t.isDirectory (up ++ [n]) = true := isDirectory_of_prefix ⟨rest, by simp⟩ h
  exact (isName_of_get?_concat (decide_eq_true_eq.mp hup)).1

theorem isName_iff {n : String} :
    isName n = true ↔
      n ≠ "." ∧ n ≠ ".." ∧ n.utf8ByteSize ≤ Disk.maxName ∧ Disk.hasNull n = false := by
  simp [isName, and_assoc]

/-- A directory may stand under every proper name in a directory. -/
theorem admits_directory {t : Tree} {loc : Location} {n : String} (h : t.isDirectory loc = true)
    (hn : isName n = true) : t.admits (loc ++ [n]) .directory = true := by
  have hplace : loc = [] ∨ t.entries.lookup loc = some .directory := by
    by_cases hnil : loc = []
    · exact .inl hnil
    · rw [← get?_eq_lookup t hnil]
      exact .inr (decide_eq_true_eq.mp h)
  rw [admits, hasPlace_concat.mpr ⟨hn, hplace⟩]
  simp

/-! ### Differences -/

/-- A difference between two trees at one location. -/
inductive Change
  | added (loc : Location) (e : Entry)
  | removed (loc : Location) (wasDirectory : Bool)

/-- Whether two entries look the same: both directories, or files of the same content. -/
def sameContent : Entry → Entry → Bool
  | .directory, .directory => true
  | .file a _, .file b _ => a == b
  | _, _ => false

/-- What has to be removed from `old` and added to it to look like `new`. -/
def changes (old new : Tree) : List Change :=
  let gone := old.entries.filterMap fun (l, e) =>
    match new.get? l with
    | none => some (.removed l (e = .directory))
    | some e' => if (e = .directory) = (e' = .directory) then none else
        some (.removed l (e = .directory))
  let come := new.entries.filterMap fun (l, e) =>
    match old.get? l with
    | none => some (.added l e)
    | some e' => if sameContent e e' then none else some (.added l e)
  gone ++ come

end Tree

end SketchBuild
