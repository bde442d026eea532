import SketchBuild.Proofs.Build.Firmware
import SketchBuild.Proofs.Build.Rebuild
import SketchBuild.Proofs.Disk.Refusal

/-! # When a sketch can be made

Between the translator and the compiler a build removes stale outputs and writes the entry point.
Both are plain changes of the disk, and the system may refuse either. `Sketch.Unblocked` says
exactly when it does not (`assemble_ok_iff`), and `Sketch.Complete` when what was made passes the
check (`accepted_iff_complete`), both told by the disk that the translator left. -/

namespace SketchBuild

open SketchBuild.Action

namespace Sketch

/-! ## Removing stale outputs -/

/-- Different files are removed one by one exactly if each of them is there. -/
theorem removeAll_ok_iff {dir : Path} {ns : List String} {w : World} (h1 : "." ∉ ns)
    (h2 : ".." ∉ ns) (hnd : ns.Nodup) :
    (∃ w', removeAll (ns.map dir.child) w = .ok () w') ↔
      ∀ n ∈ ns, ∃ c x, w.disk.stat (dir.child n) = .ok (.file c x) := by
  induction ns generalizing w with
  | nil => exact iff_of_true ⟨w, rfl⟩ (by simp)
  | cons n ns ih =>
      obtain ⟨hnot, hnd⟩ := List.nodup_cons.mp hnd
      have hn1 : n ≠ "." := fun heq => h1 (heq ▸ List.mem_cons_self)
      have hn2 : n ≠ ".." := fun heq => h2 (heq ▸ List.mem_cons_self)
      have hns1 : "." ∉ ns := fun hm => h1 (List.mem_cons_of_mem n hm)
      have hns2 : ".." ∉ ns := fun hm => h2 (List.mem_cons_of_mem n hm)
      -- the other files are there afterwards as they were before
      have hothers : ∀ {d : Disk}, w.disk.removeFile (dir.child n) = .ok d →
          ((∀ m ∈ ns, ∃ c x, d.stat (dir.child m) = .ok (.file c x)) ↔
            ∀ m ∈ ns, ∃ c x, w.disk.stat (dir.child m) = .ok (.file c x)) := by
        intro d hd
        refine forall₂_congr fun m hm => exists₂_congr fun c x => ?_
        refine (Disk.removeFile_child_confined hd hn1 hn2).stat_eq_ok_iff fun k hk heq => hnot ?_
        rw [Disk.target_child (fun h => hns1 (h ▸ hm)) (fun h => hns2 (h ▸ hm))] at heq
        rw [← hk, ← List.singleton_inj.mp (List.append_cancel_left heq)]
        exact hm
      rw [List.forall_mem_cons]
      constructor
      · rintro ⟨w', h⟩
        obtain ⟨_, w₁, hchange, hrest⟩ := bind_eq_ok_iff.mp h
        obtain ⟨d, hd, rfl⟩ := change_eq_ok_iff.mp hchange
        exact ⟨Disk.removeFile_ok_iff.mp ⟨d, hd⟩,
          (hothers hd).mp ((ih hns1 hns2 hnd).mp ⟨w', hrest⟩)⟩
      · rintro ⟨hn, hall⟩
        obtain ⟨d, hd⟩ := Disk.removeFile_ok_iff.mpr hn
        obtain ⟨w', h⟩ := (ih (w := { w with disk := d }) hns1 hns2 hnd).mpr ((hothers hd).mpr hall)
        exact ⟨w', bind_eq_ok_iff.mpr ⟨(), _, change_of_ok hd, h⟩⟩

theorem nodup_staleNames (d : Disk) (dir : Path) (keep : List Path) :
    (staleNames d dir keep).Nodup :=
  ((Disk.nodup_childNames d.tree (d.target dir)).filter _).filter _

theorem staleNames_proper {d : Disk} {dir : Path} {keep : List Path} {n : String}
    (h : n.length < outputSuffix.length) : n ∉ staleNames d dir keep := by
  intro hn
  rw [staleNames, List.mem_filter, List.mem_filter] at hn
  exact Text.ne_of_endsWith hn.1.2 h rfl

/-! ## Making a sketch -/

/-- Nothing is in the way of a sketch: its directory is there, what is stale in it are files, and
the entry point has a proper path at which no directory stands. -/
structure Unblocked (d : Disk) (dir : Path) (outputs : List Path) : Prop where
  isDirectory : d.stat dir = .ok .directory
  stale : ∀ n ∈ staleNames d dir outputs, ∃ c x, d.stat (dir.child n) = .ok (.file c x)
  wellNamed : Disk.WellNamed (entryPoint dir)
  free : d.stat (entryPoint dir) ≠ .ok .directory

/-- Stale outputs can be removed exactly if they are files. What is no directory has none. -/
theorem removeStale_ok_iff {dir : Path} {keep : List Path} {w : World}
    (hs : w.disk.stat dir = .ok .directory) :
    (∃ stale w', removeStale dir keep w = .ok stale w') ↔
      ∀ n ∈ staleNames w.disk dir keep, ∃ c x, w.disk.stat (dir.child n) = .ok (.file c x) := by
  rw [← removeAll_ok_iff (staleNames_proper (by decide)) (staleNames_proper (by decide))
    (nodup_staleNames w.disk dir keep), removeStale_apply keep hs]
  simp only [bind_eq_ok_iff]
  constructor
  · rintro ⟨_, w', _, w₁, h, -⟩
    exact ⟨w₁, h⟩
  · rintro ⟨w₁, h⟩
    exact ⟨_, _, _, w₁, h, rfl⟩

/-! ## Checking a sketch -/

/-- A check succeeds exactly if it accepts. -/
theorem check_ok_iff {dir : Path} {outputs : List Path} {w : World} :
    (∃ sketch w', check dir (some outputs) w = .ok sketch w') ↔ Accepted w.disk dir outputs := by
  constructor
  · rintro ⟨sketch, w', h⟩
    exact (check_eq_ok h).2.2
  · rintro ⟨hdir, ⟨entry, hentry, hstem⟩, present, hpresent, hsub, hsup⟩
    have hsole : soleEntryPoint dir w = .ok entry w := by
      rw [soleEntryPoint, bind_of_ok (ask_of_ok hentry)]
      dsimp only
      rw [if_pos hstem]
      rfl
    have hrequire : requireOutputs dir outputs w = .ok () w := by
      have houtputs : Sketch.outputs dir w = .ok present w := ask_of_ok hpresent
      rw [requireOutputs, bind_of_ok houtputs, namesOnlyIn_eq_nil_iff.mpr hsub,
        namesOnlyIn_eq_nil_iff.mpr hsup]
      rfl
    refine ⟨⟨dir, entry⟩, w, ?_⟩
    rw [check, bind_of_ok (ask_of_ok hdir)]
    exact (bind_of_ok hsole).trans (bind_of_ok hrequire)

/-- The check of a well named directory stops only for what is in it. -/
theorem failsOnly_check {dir : Path} (hnamed : Disk.WellNamed dir) (outputs : List Path)
    (w : World) : FailsOnly (fun f => ∃ e, f = .sketch e) (check dir (some outputs)) w := by
  have hthrow : ∀ {α : Type} {e : Error} {w : World},
      FailsOnly (fun f => ∃ e, f = .sketch e) (throw (.sketch e) : Action α) w :=
    (failsOnly_iff_of_error rfl).mpr ⟨_, rfl⟩
  have hlist : ∀ {suffix : String} {w : World},
      FailsOnly (fun f => ∃ e, f = .sketch e) (Action.ask (·.list dir suffix)) w := by
    intro suffix w
    obtain ⟨ps, hps⟩ := hnamed.exists_list w.disk suffix
    exact failsOnly_of_ok (ask_of_ok hps)
  refine failsOnly_bind_iff.mpr ⟨?_, fun there w₁ _ => ?_⟩
  · obtain ⟨there, hthere⟩ := hnamed.exists_isDirectory? w.disk
    exact failsOnly_of_ok (ask_of_ok hthere)
  · cases there with
    | false => exact hthrow
    | true =>
        refine failsOnly_bind_iff.mpr ⟨?_, fun entry w₂ _ => ?_⟩
        · refine failsOnly_bind_iff.mpr ⟨hlist, fun entries w₂ _ => ?_⟩
          split
          · exact hthrow
          · split
            · exact failsOnly_of_ok rfl
            · exact hthrow
          · exact hthrow
        · refine failsOnly_bind_iff.mpr ⟨?_, fun _ w₃ _ => failsOnly_of_ok rfl⟩
          refine failsOnly_bind_iff.mpr ⟨hlist, fun present w₃ _ => ?_⟩
          dsimp only
          split
          · exact hthrow
          · exact failsOnly_of_ok rfl

/-- What is missing for a sketch to pass the check, once it is made: no entry point but its own, and
all outputs. -/
structure Complete (d : Disk) (dir : Path) (outputs : List Path) : Prop where
  entries : ∀ n, Text.endsWith n entrySuffix = true → d.HasEntry dir n →
    n = dir.name ++ entrySuffix
  outputs : ∀ p ∈ outputs, d.HasEntry dir p.name

theorem not_endsWith_outputSuffix {n : String} (h : Text.endsWith n entrySuffix = true) :
    ¬ Text.endsWith n outputSuffix = true := by
  intro h'
  have heq := List.suffix_or_suffix_of_suffix (List.isSuffixOf_iff_suffix.mp h)
    (List.isSuffixOf_iff_suffix.mp h')
  revert heq
  decide

theorem stemOf_append_entrySuffix {s : String} (h : s ≠ "") :
    Path.stemOf (s ++ entrySuffix) = s := by
  have hlen : 0 < s.toList.length := by
    rw [String.length_toList]
    exact Nat.pos_of_ne_zero fun h0 => h (String.length_eq_zero_iff.mp h0)
  have hcs : (s ++ entrySuffix).toList = s.toList ++ ['.', 'i', 'n', 'o'] := by
    rw [String.toList_append]
    rfl
  have hafter : ((s.toList ++ ['.', 'i', 'n', 'o']).reverse.takeWhile (· != '.')).length = 3 := by
    rw [List.reverse_append]
    rfl
  rw [Path.stemOf, hcs, hafter, List.length_append]
  dsimp only [List.length_cons, List.length_nil]
  rw [if_neg (by omega)]
  simp

end Sketch

namespace Build

theorem clearStale_ok_iff {dir : Path} {keep : List Path} {w : World} :
    (∃ w', clearStale dir keep w = .ok () w') ↔
      ∃ stale w', Sketch.removeStale dir keep w = .ok stale w' := by
  constructor
  · rintro ⟨w', h⟩
    obtain ⟨stale, w₁, h₁, -⟩ := clearStale_eq_ok h
    exact ⟨stale, w₁, h₁⟩
  · rintro ⟨stale, w₁, h₁⟩
    obtain ⟨w', h, -⟩ := Shows.forM (fun _ => .log _ _) stale w₁
    exact ⟨w', bind_eq_ok_iff.mpr ⟨stale, w₁, h₁, h⟩⟩

/-- Where there is no directory, nothing is cleared away. -/
theorem disk_of_clearStale {dir : Path} {keep : List Path} {w w' : World}
    (h : clearStale dir keep w = .ok () w') (hs : w.disk.stat dir ≠ .ok .directory) :
    w'.disk = w.disk := by
  obtain ⟨stale, w₁, hremove, hq⟩ := clearStale_eq_ok h
  obtain ⟨outputs, w₂, hask, hrest⟩ := bind_eq_ok_iff.mp hremove
  obtain ⟨hlist, rfl⟩ := ask_eq_ok_iff.mp hask
  have hnil : outputs = [] := by
    rw [List.eq_nil_iff_forall_not_mem]
    intro p hp
    exact hs (Disk.stat_of_mem_list hlist hp)
  rw [hnil] at hrest
  cases hrest
  exact hq.disk

theorem clearStale_confined {dir : Path} {keep : List Path} {w w' : World}
    (h : clearStale dir keep w = .ok () w') (hs : w.disk.stat dir = .ok .directory)
    (h0 : (w.disk.target dir).lost = 0) :
    w.disk.Confined (w.disk.target dir).loc
      (fun n => Text.endsWith n Sketch.outputSuffix = true ∧ n ∉ keep.map Path.name) w'.disk := by
  obtain ⟨stale, w₁, hremove, hq⟩ := clearStale_eq_ok h
  rw [hq.disk]
  exact (Sketch.removeStale_eq_ok hremove hs h0).1

/-- **A sketch is made exactly if nothing is in its way.** -/
theorem assemble_ok_iff {b : Builder} {result : Result} {w : World}
    (hnamed : Disk.WellNamed result.sketchDir)
    (h0 : (w.disk.target result.sketchDir).lost = 0) :
    (∃ w', b.assemble result w = .ok () w') ↔
      Sketch.Unblocked w.disk result.sketchDir result.outputs := by
  -- clearing away moves no directory, so the entry point can be written after it as before
  have hentry : ∀ {w₁ : World}, clearStale result.sketchDir result.outputs w = .ok () w₁ →
      w.disk.stat result.sketchDir = .ok .directory →
      ((∃ d, w₁.disk.writeFile (Sketch.entryPoint result.sketchDir)
          (Text.Utf8.encode Sketch.stub) = .ok d) ↔
        Disk.WellNamed (Sketch.entryPoint result.sketchDir) ∧
          w.disk.stat (Sketch.entryPoint result.sketchDir) ≠ .ok .directory) := by
    intro w₁ hclear hs
    have hconf := clearStale_confined hclear hs h0
    have ht := Disk.target_of_cwd hconf.cwd result.sketchDir
    rw [Ne, ← hconf.stat_directory_iff]
    exact Disk.writeFile_child_ok_iff (hconf.stat_directory_iff.mpr hs) (ht ▸ h0)
      (Sketch.entryName_ne_dot _) (Sketch.entryName_ne_dotDot _)
  constructor
  · rintro ⟨w', h⟩
    obtain ⟨w₁, hclear, hwrite⟩ := assemble_eq_ok h
    have hs : w.disk.stat result.sketchDir = .ok .directory := by
      by_contra hs
      obtain ⟨-, hp, -⟩ := Disk.writeFile_eq_ok_iff.mp hwrite
      rw [disk_of_clearStale hclear hs] at hp
      obtain ⟨hp, hocc, -⟩ := Disk.passable_child.mp hp
      exact hs (Disk.stat_eq_ok_iff.mpr ⟨hnamed.spellable, hp, hocc⟩)
    have hstale := (Sketch.removeStale_ok_iff hs).mp (clearStale_ok_iff.mp ⟨w₁, hclear⟩)
    obtain ⟨hwell, hfree⟩ := (hentry hclear hs).mp ⟨_, hwrite⟩
    exact ⟨hs, hstale, hwell, hfree⟩
  · rintro ⟨hs, hstale, hwell, hfree⟩
    obtain ⟨w₁, hclear⟩ := clearStale_ok_iff.mpr ((Sketch.removeStale_ok_iff hs).mpr hstale)
    obtain ⟨d, hwrite⟩ := (hentry hclear hs).mpr ⟨hwell, hfree⟩
    have hstub : Sketch.writeEntryPoint result.sketchDir w₁ =
        .ok (Sketch.entryPoint result.sketchDir) { w₁ with disk := d } :=
      bind_of_ok (change_of_ok hwrite)
    obtain ⟨w', hstep, -⟩ := shows_step b 4 _ { w₁ with disk := d }
    refine ⟨w', ?_⟩
    rw [Builder.assemble, bind_of_ok hclear, bind_of_ok hstub]
    exact hstep

section Made

variable {b : Builder} {result : Result} {w w' : World}

/-- What is neither stale nor the entry point is there as before. -/
theorem hasEntry_of_assemble (h : b.assemble result w = .ok () w')
    (hs : w.disk.stat result.sketchDir = .ok .directory)
    (h0 : (w.disk.target result.sketchDir).lost = 0) {n : String}
    (hkeep : Text.endsWith n Sketch.outputSuffix = true → n ∈ result.outputs.map Path.name)
    (hne : n ≠ result.sketchDir.name ++ Sketch.entrySuffix) :
    w'.disk.HasEntry result.sketchDir n ↔ w.disk.HasEntry result.sketchDir n := by
  obtain ⟨hconf, -, -⟩ := assemble_leaves h hs h0
  rw [Disk.HasEntry, Disk.HasEntry, Disk.target_of_cwd hconf.cwd, hconf.tree.get]
  rintro m hm heq
  obtain rfl : n = m := List.singleton_inj.mp (List.append_cancel_left heq)
  rcases hm with ⟨hends, hnot⟩ | rfl
  · exact hnot (hkeep hends)
  · exact hne rfl

/-- The outputs of a sketch that was made are exactly those wanted if these were all there. -/
theorem holds_outputs_of_assemble (h : b.assemble result w = .ok () w')
    (hs : w.disk.stat result.sketchDir = .ok .directory)
    (h0 : (w.disk.target result.sketchDir).lost = 0)
    (houtputs : ∀ p ∈ result.outputs, Text.endsWith p.name Sketch.outputSuffix = true) :
    w'.disk.Holds result.sketchDir Sketch.outputSuffix (result.outputs.map Path.name) ↔
      ∀ p ∈ result.outputs, w.disk.HasEntry result.sketchDir p.name := by
  obtain ⟨hconf, hgone, -⟩ := assemble_leaves h hs h0
  have ht := Disk.target_of_cwd hconf.cwd result.sketchDir
  have houtput : ∀ p ∈ result.outputs,
      (w'.disk.HasEntry result.sketchDir p.name ↔ w.disk.HasEntry result.sketchDir p.name) := by
    intro p hp
    refine hasEntry_of_assemble h hs h0 (fun _ => List.mem_map_of_mem hp) fun heq => ?_
    exact Sketch.not_endsWith_entryName result.sketchDir (heq ▸ houtputs p hp)
  rw [Disk.holds_iff (hconf.stat_directory_iff.mpr hs) (by rw [ht, h0])]
  constructor
  · intro hiff p hp
    exact (houtput p hp).mp ((hiff p.name).mpr (List.mem_map_of_mem hp)).2
  · intro hall n
    constructor
    · rintro ⟨hends, hthere⟩
      by_contra hnot
      rw [ht, hgone n hends hnot] at hthere
      cases hthere
    · intro hn
      obtain ⟨p, hp, rfl⟩ := List.mem_map.mp hn
      exact ⟨houtputs p hp, (houtput p hp).mpr (hall p hp)⟩

/-- **What was made passes the check exactly if it is complete.** -/
theorem accepted_iff_complete (h : b.assemble result w = .ok () w')
    (hs : w.disk.stat result.sketchDir = .ok .directory)
    (h0 : (w.disk.target result.sketchDir).lost = 0) (hname : result.sketchDir.name ≠ "")
    (houtputs : ∀ p ∈ result.outputs, Text.endsWith p.name Sketch.outputSuffix = true) :
    Sketch.Accepted w'.disk result.sketchDir result.outputs ↔
      Sketch.Complete w.disk result.sketchDir result.outputs := by
  obtain ⟨hconf, -, x, hentry⟩ := assemble_leaves h hs h0
  have hs' : w'.disk.stat result.sketchDir = .ok .directory := hconf.stat_directory_iff.mpr hs
  have h0' : (w'.disk.target result.sketchDir).lost = 0 := by
    rw [Disk.target_of_cwd hconf.cwd, h0]
  have hholds := holds_outputs_of_assemble h hs h0 houtputs
  -- another entry point is there after as before
  have hother : ∀ n, Text.endsWith n Sketch.entrySuffix = true →
      n ≠ result.sketchDir.name ++ Sketch.entrySuffix →
      (w'.disk.HasEntry result.sketchDir n ↔ w.disk.HasEntry result.sketchDir n) := by
    intro n hends hne
    refine hasEntry_of_assemble h hs h0 (fun houtput => ?_) hne
    exact absurd houtput (Sketch.not_endsWith_outputSuffix hends)
  constructor
  · intro haccepted
    refine ⟨fun n hends hn => ?_, hholds.mp haccepted.holds⟩
    by_contra hne
    have hin := ((Disk.holds_iff hs' h0').mp (haccepted.holds_entry hentry) n).mp
      ⟨hends, (hother n hends hne).mpr hn⟩
    exact hne (List.mem_singleton.mp hin)
  · rintro ⟨hentries, hall⟩
    obtain ⟨present, hlist, hmem⟩ := hholds.mpr hall
    refine ⟨Disk.isDirectory?_eq_true_iff.mpr hs', ⟨Sketch.entryPoint result.sketchDir, ?_, ?_⟩,
      present, hlist, fun n hn => (hmem n).mp hn, fun n hn => (hmem n).mpr hn⟩
    · refine Disk.list_eq_singleton hs' (Sketch.endsWith_entryName _) ?_ fun m hm hends => ?_
      · rw [Place.childNames, if_pos h0', Tree.mem_childNames, (Disk.get?_of_stat_child hentry
          (Sketch.entryName_ne_dot _) (Sketch.entryName_ne_dotDot _)).2]
        rfl
      · by_contra hne
        rw [Place.childNames, if_pos h0', Tree.mem_childNames] at hm
        exact hne (hentries m hends ((hother m hends hne).mp hm))
    · rw [Path.stem, Sketch.entryPoint, Path.name_child]
      exact Sketch.stemOf_append_entrySuffix hname

end Made

end Build

end SketchBuild
