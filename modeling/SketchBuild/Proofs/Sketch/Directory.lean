import SketchBuild.Proofs.Action
import SketchBuild.Proofs.Disk.Confined
import SketchBuild.Sketch.Directory

/-! # Checking and tidying a sketch directory -/

namespace SketchBuild.Sketch

open SketchBuild.Action

/-! ## Entry points -/

theorem endsWith_entryName (dir : Path) :
    Text.endsWith (dir.name ++ entrySuffix) entrySuffix = true :=
  Text.endsWith_append _ _

theorem entryName_ne_dot (dir : Path) : dir.name ++ entrySuffix ≠ "." :=
  Text.ne_of_endsWith (endsWith_entryName dir) (by decide)

theorem entryName_ne_dotDot (dir : Path) : dir.name ++ entrySuffix ≠ ".." :=
  Text.ne_of_endsWith (endsWith_entryName dir) (by decide)

/-- No entry point is the output of a source. -/
theorem not_endsWith_entryName (dir : Path) :
    ¬ Text.endsWith (dir.name ++ entrySuffix) outputSuffix = true := by
  intro h
  have h1 := List.isSuffixOf_iff_suffix.mp (endsWith_entryName dir)
  have h2 := List.isSuffixOf_iff_suffix.mp h
  -- of two endings of one name the shorter ends the longer
  have heq := List.suffix_or_suffix_of_suffix h1 h2
  revert heq
  decide

/-! ## Checking -/

/-- What the check of a directory accepts: one entry point, which has the directory's name, and
translator output of exactly the names of `expected`. -/
structure Accepted (d : Disk) (dir : Path) (expected : List Path) : Prop where
  isDirectory : d.isDirectory? dir = .ok true
  entry : ∃ entry, d.list dir entrySuffix = .ok [entry] ∧ entry.stem = dir.name
  outputs : ∃ present, d.list dir outputSuffix = .ok present ∧
    present.map Path.name ⊆ expected.map Path.name ∧
    expected.map Path.name ⊆ present.map Path.name

theorem namesOnlyIn_eq_nil_iff {xs ys : List String} : namesOnlyIn xs ys = [] ↔ xs ⊆ ys := by
  have hdups : ∀ l : List String, l.eraseDups = [] ↔ l = [] := by
    intro l
    cases l <;> simp [List.eraseDups_cons]
  have horder : ∀ l : List String, Text.inOrder l = [] ↔ l = [] := by
    intro l
    simp [List.eq_nil_iff_forall_not_mem]
  rw [namesOnlyIn, hdups, horder, List.filter_eq_nil_iff]
  simp [List.subset_def]

theorem soleEntryPoint_eq_ok {dir entry : Path} {w w' : World}
    (h : soleEntryPoint dir w = .ok entry w') :
    w' = w ∧ w.disk.list dir entrySuffix = .ok [entry] ∧ entry.stem = dir.name := by
  obtain ⟨entries, w₁, hask, hrest⟩ := bind_eq_ok_iff.mp h
  obtain ⟨hl, rfl⟩ := ask_eq_ok_iff.mp hask
  split at hrest
  · cases hrest
  · split at hrest
    · next hstem =>
        cases hrest
        exact ⟨rfl, hl, hstem⟩
    · cases hrest
  · cases hrest

theorem requireOutputs_eq_ok {dir : Path} {expected : List Path} {w w' : World}
    (h : requireOutputs dir expected w = .ok () w') :
    w' = w ∧ ∃ present, w.disk.list dir outputSuffix = .ok present ∧
      present.map Path.name ⊆ expected.map Path.name ∧
      expected.map Path.name ⊆ present.map Path.name := by
  obtain ⟨present, w₁, hask, hrest⟩ := bind_eq_ok_iff.mp h
  obtain ⟨hl, rfl⟩ := ask_eq_ok_iff.mp hask
  split at hrest
  · cases hrest
  · next hsame =>
      cases hrest
      refine ⟨rfl, present, hl, ?_, ?_⟩
      · exact namesOnlyIn_eq_nil_iff.mp (by simp_all)
      · exact namesOnlyIn_eq_nil_iff.mp (by simp_all)

/-- A check that succeeds changes nothing. -/
theorem check_eq_ok {dir : Path} {outputs : List Path} {w w' : World} {sketch : Checked}
    (h : check dir (some outputs) w = .ok sketch w') :
    w' = w ∧ sketch.dir = dir ∧ Accepted w.disk dir outputs := by
  obtain ⟨there, w₁, hask, h₁⟩ := bind_eq_ok_iff.mp h
  obtain ⟨hd, rfl⟩ := ask_eq_ok_iff.mp hask
  cases there with
  | false => cases h₁
  | true =>
      obtain ⟨entry, w₂, hentry, h₂⟩ := bind_eq_ok_iff.mp h₁
      obtain ⟨rfl, hl, hstem⟩ := soleEntryPoint_eq_ok hentry
      obtain ⟨_, w₃, hout, h₃⟩ := bind_eq_ok_iff.mp h₂
      obtain ⟨rfl, hpresent⟩ := requireOutputs_eq_ok hout
      cases h₃
      exact ⟨rfl, rfl, ⟨hd, ⟨entry, hl, hstem⟩, hpresent⟩⟩

theorem silent_check (dir : Path) (expected : Option (List Path)) :
    Silent (check dir expected) := by
  have hsole : Silent (soleEntryPoint dir) := by
    refine (Silent.ask _).bind fun entries => ?_
    split
    · exact .throw _
    · split
      · exact .pure _
      · exact .throw _
    · exact .throw _
  have houtputs : ∀ outputs, Silent (requireOutputs dir outputs) := by
    intro outputs
    refine (Silent.ask _).bind fun present => ?_
    dsimp only
    split
    · exact .throw _
    · exact .pure _
  refine (Silent.ask _).bind fun there => ?_
  cases there with
  | false => exact fun w => .refl w
  | true =>
      refine hsole.bind fun entry => Silent.bind ?_ fun _ => .pure _
      cases expected with
      | none => exact .pure _
      | some outputs => exact houtputs outputs

/-! ## Tidying -/

theorem silent_removeStale (dir : Path) (keep : List Path) : Silent (removeStale dir keep) :=
  (Silent.ask _).bind fun _ => (Silent.forM (fun _ => .change _) _).bind fun _ => .pure _

/-- Removing files of a directory one by one changes these files only, and none of them is left. -/
theorem removeAll_eq_ok {dir : Path} {ns : List String} {w w' : World}
    (h : removeAll (ns.map dir.child) w = .ok () w') (h1 : "." ∉ ns) (h2 : ".." ∉ ns) :
    Disk.Confined (w.disk.target dir).loc (· ∈ ns) w.disk w'.disk ∧
      ∀ n ∈ ns, w'.disk.tree.get? ((w.disk.target dir).loc ++ [n]) = none := by
  induction ns generalizing w with
  | nil =>
      cases h
      exact ⟨.refl _ _ _, by simp⟩
  | cons n ns ih =>
      obtain ⟨_, w₁, hchange, hrest⟩ := bind_eq_ok_iff.mp h
      obtain ⟨d, hd, rfl⟩ := change_eq_ok_iff.mp hchange
      have hn1 : n ≠ "." := fun heq => h1 (heq ▸ List.mem_cons_self)
      have hn2 : n ≠ ".." := fun heq => h2 (heq ▸ List.mem_cons_self)
      have hfirst := Disk.removeFile_child_confined hd hn1 hn2
      obtain ⟨hconf, hgone⟩ := ih hrest (fun hm => h1 (List.mem_cons_of_mem n hm))
        (fun hm => h2 (List.mem_cons_of_mem n hm))
      rw [show (World.disk { w with disk := d }).target dir = w.disk.target dir from
        Disk.target_of_cwd hfirst.cwd dir] at hconf hgone
      refine ⟨(hfirst.mono ?_).trans (hconf.mono ?_), ?_⟩
      · rintro m rfl
        exact List.mem_cons_self
      · intro m hm
        exact List.mem_cons_of_mem n hm
      · intro m hm
        by_cases hmem : m ∈ ns
        · exact hgone m hmem
        · obtain rfl : m = n := by simpa [hmem] using hm
          -- the rest does not touch the file that is gone already
          rw [hconf.tree.get _ fun k hk heq => hmem (by
            rwa [List.singleton_inj.mp (List.append_cancel_left heq)])]
          exact Disk.get?_of_removeFile_child hd hn1 hn2

/-- The names of translator output in a directory that are not to be kept. -/
def staleNames (d : Disk) (dir : Path) (keep : List Path) : List String :=
  (((d.target dir).childNames d.tree).filter (Text.endsWith · outputSuffix)).filter
    (!(keep.map Path.name).contains ·)

theorem mem_staleNames {d : Disk} {dir : Path} {keep : List Path} {n : String}
    (h0 : (d.target dir).lost = 0) :
    n ∈ staleNames d dir keep ↔
      (d.tree.get? ((d.target dir).loc ++ [n])).isSome = true ∧
        Text.endsWith n outputSuffix = true ∧ n ∉ keep.map Path.name := by
  rw [staleNames, List.mem_filter, List.mem_filter, Place.childNames, if_pos h0,
    Tree.mem_childNames, and_assoc]
  simp

theorem removeStale_apply {dir : Path} {w : World} (keep : List Path)
    (hs : w.disk.stat dir = .ok .directory) :
    removeStale dir keep w =
      (removeAll ((staleNames w.disk dir keep).map dir.child) >>= fun _ =>
        pure ((staleNames w.disk dir keep).map dir.child)) w := by
  have hout : outputs dir w = .ok _ w := ask_of_ok (Disk.list_of_stat hs outputSuffix)
  unfold removeStale
  rw [bind_of_ok hout, List.filter_map]
  simp only [Function.comp_def, Path.name_child]
  rfl

/-- What is cleared away is exactly the output that is not to be kept. -/
theorem removeStale_eq_ok {dir : Path} {keep stale : List Path} {w w' : World}
    (h : removeStale dir keep w = .ok stale w') (hs : w.disk.stat dir = .ok .directory)
    (h0 : (w.disk.target dir).lost = 0) :
    Disk.Confined (w.disk.target dir).loc
        (fun n => Text.endsWith n outputSuffix = true ∧ n ∉ keep.map Path.name) w.disk w'.disk ∧
      ∀ n, Text.endsWith n outputSuffix = true → n ∉ keep.map Path.name →
        w'.disk.tree.get? ((w.disk.target dir).loc ++ [n]) = none := by
  rw [removeStale_apply keep hs] at h
  obtain ⟨_, w₁, hremove, hpure⟩ := bind_eq_ok_iff.mp h
  cases hpure
  have hproper : ∀ n, n.length < outputSuffix.length → n ∉ staleNames w.disk dir keep := by
    intro n hlen hn
    exact Text.ne_of_endsWith ((mem_staleNames h0).mp hn).2.1 hlen rfl
  obtain ⟨hconf, hgone⟩ := removeAll_eq_ok hremove (hproper _ (by decide)) (hproper _ (by decide))
  refine ⟨hconf.mono fun n hn => ((mem_staleNames h0).mp hn).2, ?_⟩
  intro n hends hkeep
  by_cases hn : n ∈ staleNames w.disk dir keep
  · exact hgone n hn
  · rw [hconf.tree.get _ fun k hk heq => hn (by
      rwa [List.singleton_inj.mp (List.append_cancel_left heq)])]
    have hnot : ¬ (w.disk.tree.get? ((w.disk.target dir).loc ++ [n])).isSome = true := by
      intro hsome
      exact hn ((mem_staleNames h0).mpr ⟨hsome, hends, hkeep⟩)
    simpa using hnot

/-- A directory with nothing stale is left as it is. -/
theorem removeStale_of_clean {dir : Path} {keep : List Path} {w : World}
    (hs : w.disk.stat dir = .ok .directory) (h0 : (w.disk.target dir).lost = 0)
    (hclean : ∀ n, Text.endsWith n outputSuffix = true →
      (w.disk.tree.get? ((w.disk.target dir).loc ++ [n])).isSome = true →
        n ∈ keep.map Path.name) :
    removeStale dir keep w = .ok [] w := by
  have hnil : staleNames w.disk dir keep = [] := by
    rw [List.eq_nil_iff_forall_not_mem]
    intro n hn
    obtain ⟨hsome, hends, hkeep⟩ := (mem_staleNames h0).mp hn
    exact hkeep (hclean n hends hsome)
  rw [removeStale_apply keep hs, hnil]
  rfl

theorem silent_writeEntryPoint (dir : Path) : Silent (writeEntryPoint dir) :=
  (Silent.change _).bind fun _ => .pure _

end SketchBuild.Sketch
