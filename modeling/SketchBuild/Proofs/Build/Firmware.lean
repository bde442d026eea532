import Mathlib.Data.Prod.Lex
import SketchBuild.Proofs.Build.Calls
import SketchBuild.Proofs.Disk.Outside

/-! # The firmware that a build reports

Firmware is looked for in the build directory when the compiler has succeeded: the best name by
suffix, then by order. The directory is never cleaned, so what is found there may be older than the
build. `Builder.firmware_is_written_iff` says exactly when it is not. -/

namespace SketchBuild

open SketchBuild.Action

/-- Something stands in a directory under a name. -/
def Disk.HasEntry (d : Disk) (dir : Path) (n : String) : Prop :=
  (d.tree.get? ((d.target dir).loc ++ [n])).isSome = true

theorem Disk.hasEntry_iff {d : Disk} {dir : Path} {loc : Location} (h : (d.target dir).loc = loc)
    {n : String} : d.HasEntry dir n ↔ n ∈ d.tree.childNames loc := by
  rw [HasEntry, h, Tree.mem_childNames]

namespace Compiler

/-! ## The order of preference -/

/-- How names are preferred: by the first suffix that they have, then in their own order. -/
def preference (suffixes : List String) (n : String) : ℕ ×ₗ String :=
  toLex (suffixes.findIdx (Text.endsWith n ·), n)

theorem preference_injective (suffixes : List String) :
    Function.Injective (preference suffixes) := by
  intro n m h
  exact congrArg (fun k => (ofLex k).2) h

theorem preference_cons_le {suffix : String} {rest : List String} {n m : String}
    (hn : Text.endsWith n suffix = true) (hle : Text.endsWith m suffix = true → n ≤ m) :
    preference (suffix :: rest) n ≤ preference (suffix :: rest) m := by
  rw [preference, preference, Prod.Lex.toLex_le_toLex, List.findIdx_cons, hn, List.findIdx_cons]
  cases hm : Text.endsWith m suffix with
  | true => exact Or.inr ⟨rfl, hle hm⟩
  | false => exact Or.inl (Nat.succ_pos _)

theorem preference_cons_mono {suffix : String} {rest : List String} {n m : String}
    (hn : Text.endsWith n suffix = false) (hm : Text.endsWith m suffix = false)
    (h : preference rest n ≤ preference rest m) :
    preference (suffix :: rest) n ≤ preference (suffix :: rest) m := by
  rw [preference, preference, Prod.Lex.toLex_le_toLex] at h ⊢
  rw [List.findIdx_cons, List.findIdx_cons, hn, hm]
  simpa using h

/-! ## Looking for firmware -/

/-- The first entry with one of some suffixes is the most preferred of all entries. -/
theorem firstWith_of_stat {dir : Path} {w : World} (hs : w.disk.stat dir = .ok .directory)
    (h0 : (w.disk.target dir).lost = 0) {suffixes : List String}
    (hsome : ∃ n, w.disk.HasEntry dir n ∧ ∃ suffix ∈ suffixes, Text.endsWith n suffix = true) :
    ∃ n, w.disk.HasEntry dir n ∧ (∃ suffix ∈ suffixes, Text.endsWith n suffix = true) ∧
      (∀ m, w.disk.HasEntry dir m → preference suffixes n ≤ preference suffixes m) ∧
      firstWith dir suffixes w = .ok (some (dir.child n)) w := by
  have hmem : ∀ n suffix, n ∈ ((w.disk.target dir).childNames w.disk.tree).filter
      (Text.endsWith · suffix) ↔ w.disk.HasEntry dir n ∧ Text.endsWith n suffix = true := by
    intro n suffix
    rw [List.mem_filter, Place.childNames, if_pos h0, Tree.mem_childNames, Disk.HasEntry]
  induction suffixes with
  | nil =>
      obtain ⟨n, -, suffix, hmem, -⟩ := hsome
      cases hmem
  | cons suffix rest ih =>
      have hsorted := (Disk.pairwise_childNames w.disk.tree (w.disk.target dir)).filter
        (Text.endsWith · suffix)
      have hlist := Disk.list_of_stat hs suffix
      unfold firstWith
      cases hnames : ((w.disk.target dir).childNames w.disk.tree).filter
          (Text.endsWith · suffix) with
      | nil =>
          -- no entry has this suffix, so the others decide
          rw [hnames] at hlist
          rw [bind_of_ok (ask_of_ok hlist)]
          have hnone : ∀ n, w.disk.HasEntry dir n → Text.endsWith n suffix = false := by
            intro n hn
            by_contra hends
            have hin := (hmem n suffix).mpr ⟨hn, by simpa using hends⟩
            rw [hnames] at hin
            cases hin
          obtain ⟨n, hn, ⟨t, ht, hends⟩, hbest, hrun⟩ := ih (by
            obtain ⟨n, hn, t, ht, hends⟩ := hsome
            rcases List.mem_cons.mp ht with rfl | ht
            · cases (hnone n hn).symm.trans hends
            · exact ⟨n, hn, t, ht, hends⟩)
          exact ⟨n, hn, ⟨t, List.mem_cons_of_mem _ ht, hends⟩,
            fun m hm => preference_cons_mono (hnone n hn) (hnone m hm) (hbest m hm), hrun⟩
      | cons n names =>
          -- the listing is in order, so its first name is the least with this suffix
          rw [hnames] at hlist hsorted
          rw [bind_of_ok (ask_of_ok hlist)]
          obtain ⟨hn, hends⟩ := (hmem n suffix).mp (hnames ▸ List.mem_cons_self)
          refine ⟨n, hn, ⟨suffix, List.mem_cons_self, hends⟩,
            fun m hm => preference_cons_le hends fun hm' => ?_, rfl⟩
          have hin := (hmem m suffix).mpr ⟨hm, hm'⟩
          rw [hnames] at hin
          rcases List.mem_cons.mp hin with rfl | hin
          · exact le_refl _
          · exact (List.pairwise_cons.mp hsorted).1 m hin

/-- Whether a name has one of the suffixes of firmware. -/
def IsFirmware (n : String) : Prop := ∃ suffix ∈ firmwareSuffixes, Text.endsWith n suffix = true
deriving Decidable

theorem IsFirmware.ne_dot {n : String} (h : IsFirmware n) : n ≠ "." ∧ n ≠ ".." := by
  obtain ⟨suffix, hmem, hends⟩ := h
  have hlen : ∀ s ∈ firmwareSuffixes, ".".length < s.length ∧ "..".length < s.length := by decide
  exact ⟨Text.ne_of_endsWith hends (hlen suffix hmem).1,
    Text.ne_of_endsWith hends (hlen suffix hmem).2⟩

/-- The firmware `written`, of which there is some, was written into a directory between `d` and
`d'`: any other firmware there was there before. -/
structure Wrote (d d' : Disk) (dir : Path) (written : List String) : Prop where
  nonempty : written ≠ []
  firmware : ∀ n ∈ written, IsFirmware n
  files : ∀ n ∈ written, ∃ c x, d'.stat (dir.child n) = .ok (.file c x)
  others : ∀ n, IsFirmware n → n ∉ written → d'.HasEntry dir n → d.HasEntry dir n

/-- A name of firmware that was there before, still is and is not among `written`. -/
structure Leftover (d d' : Disk) (dir : Path) (written : List String) (n : String) : Prop where
  firmware : IsFirmware n
  unwritten : n ∉ written
  before : d.HasEntry dir n
  after : d'.HasEntry dir n

/-- One of the names in `written` or of the leftovers is reported. It is one of those in `written`
exactly if each leftover comes after one of them in the order of preference, and then it is the
first of them. -/
def Reports (d d' : Disk) (dir : Path) (written : List String) (found : Option Path) : Prop :=
  ∃ n, found = some (dir.child n) ∧ (n ∈ written ∨ Leftover d d' dir written n) ∧
    (n ∈ written ↔ ∀ m, Leftover d d' dir written m →
      ∃ k ∈ written, preference firmwareSuffixes k < preference firmwareSuffixes m) ∧
    (n ∈ written → ∀ k ∈ written, preference firmwareSuffixes n ≤ preference firmwareSuffixes k)

section Wrote

variable {d d' : Disk} {dir : Path} {written : List String}

theorem Wrote.hasEntry (h : Wrote d d' dir written) {n : String} (hn : n ∈ written) :
    (d'.target dir).lost = 0 ∧ d'.HasEntry dir n := by
  obtain ⟨c, x, hstat⟩ := h.files n hn
  obtain ⟨h1, h2⟩ := (h.firmware n hn).ne_dot
  obtain ⟨h0, hget⟩ := Disk.get?_of_stat_child hstat h1 h2
  refine ⟨h0, ?_⟩
  rw [Disk.HasEntry, hget]
  rfl

theorem Wrote.stat (h : Wrote d d' dir written) (hdir : Disk.Spellable dir) :
    d'.stat dir = .ok .directory := by
  obtain ⟨n, hn⟩ := List.exists_mem_of_ne_nil _ h.nonempty
  obtain ⟨c, x, hstat⟩ := h.files n hn
  obtain ⟨-, hp, -⟩ := Disk.stat_eq_ok_iff.mp hstat
  obtain ⟨hp, he, -⟩ := Disk.passable_child.mp hp
  exact Disk.stat_eq_ok_iff.mpr ⟨hdir, hp, he⟩

/-- The most preferred entry is reported. -/
theorem Wrote.reports (h : Wrote d d' dir written) {n : String} (hn : d'.HasEntry dir n)
    (hfirm : IsFirmware n) (hbest : ∀ m, d'.HasEntry dir m →
      preference firmwareSuffixes n ≤ preference firmwareSuffixes m) :
    Reports d d' dir written (some (dir.child n)) := by
  have hleft : n ∉ written → Leftover d d' dir written n :=
    fun hnot => ⟨hfirm, hnot, h.others n hfirm hnot hn, hn⟩
  refine ⟨n, rfl, ?_, ⟨fun hw m hm => ?_, fun hall => ?_⟩, fun _ k hk => hbest k (h.hasEntry hk).2⟩
  · by_cases hw : n ∈ written
    · exact Or.inl hw
    · exact Or.inr (hleft hw)
  · refine ⟨n, hw, lt_of_le_of_ne (hbest m hm.after) fun heq => hm.unwritten ?_⟩
    rwa [← preference_injective _ heq]
  · by_contra hnot
    obtain ⟨k, hk, hlt⟩ := hall n (hleft hnot)
    exact absurd (hbest k (h.hasEntry hk).2) (not_le_of_gt hlt)

/-- Firmware is found where some was written. -/
theorem findFirmware_of_wrote {w : World} (hdir : Disk.Spellable dir)
    (h : Wrote d w.disk dir written) :
    ∃ found, findFirmware dir w = .ok found w ∧ Reports d w.disk dir written found := by
  obtain ⟨n, hn⟩ := List.exists_mem_of_ne_nil _ h.nonempty
  obtain ⟨h0, hentry⟩ := h.hasEntry hn
  obtain ⟨m, hm, hfirm, hbest, hrun⟩ :=
    firstWith_of_stat (h.stat hdir) h0 ⟨n, hentry, h.firmware n hn⟩
  exact ⟨_, hrun, h.reports hm hfirm hbest⟩

end Wrote

/-! ## Compiling -/

/-- A compiler that was started and succeeded is followed by a look for firmware. -/
theorem compile_of_run {c : Compiler} {sketch : Sketch.Checked} {fqbn : String} {buildPath : Path}
    {w : World} {s : Tool.Start}
    (hpast : ((c.compile sketch fqbn buildPath).after w).past = w.past ++ [s])
    (hok : (s.response w.tools w.past).succeeds = true) :
    Disk.Spellable buildPath ∧ c.compile sketch fqbn buildPath w =
      findFirmware buildPath ((c.compile sketch fqbn buildPath).after w) := by
  rcases compile_cases c sketch fqbn buildPath w with
    ⟨f, w', herr, htr⟩ | ⟨d, w', hmake, htr, -, hend⟩
  · rw [after_of_error herr, htr.past] at hpast
    simp at hpast
  · obtain ⟨hsp, -⟩ := Disk.stat_eq_ok_iff.mp (Disk.makePath_made hmake).stat
    rcases hend with ⟨hfail, f, herr⟩ | ⟨-, hfind⟩
    · rw [after_of_error herr, htr.past] at hpast
      obtain rfl := List.singleton_inj.mp (List.append_cancel_left hpast)
      cases hfail.symm.trans hok
    · rw [after_congr hfind, after_findFirmware]
      exact ⟨hsp, hfind⟩

/-- A compiler that succeeds and writes firmware has some reported. -/
theorem compile_reports {c : Compiler} {sketch : Sketch.Checked} {fqbn : String} {buildPath : Path}
    {w : World} {s : Tool.Start} {written : List String}
    (hpast : ((c.compile sketch fqbn buildPath).after w).past = w.past ++ [s])
    (hok : (s.response w.tools w.past).succeeds = true)
    (hwrote : Wrote s.disk ((c.compile sketch fqbn buildPath).after w).disk buildPath written) :
    ∃ found, c.compile sketch fqbn buildPath w =
        .ok found ((c.compile sketch fqbn buildPath).after w) ∧
      Reports s.disk ((c.compile sketch fqbn buildPath).after w).disk buildPath written found := by
  obtain ⟨hsp, hfind⟩ := compile_of_run hpast hok
  obtain ⟨found, hrun, hreports⟩ := findFirmware_of_wrote hsp hwrote
  exact ⟨found, hfind.trans hrun, hreports⟩

end Compiler

namespace Build

/-- The same for a build that has come to compile. -/
theorem compile_reports {b : Builder} {root : Path} {result : Result} {w : World}
    {s : Tool.Start} {written : List String}
    (hpast : ((b.compile root result).after w).past = w.past ++ [s])
    (hok : (s.response w.tools w.past).succeeds = true)
    (hwrote : Compiler.Wrote s.disk ((b.compile root result).after w).disk
      (root.child cacheName) written) :
    ∃ result', b.compile root result w = .ok result' ((b.compile root result).after w) ∧
      Compiler.Reports s.disk ((b.compile root result).after w).disk (root.child cacheName)
        written result'.firmware := by
  rcases compile_cases b root result w with
    ⟨f, w', herr, htr⟩ | ⟨board, sketch, w₁, -, -, -, hq, hquiet, hcases⟩
  · rw [after_of_error herr, htr.past] at hpast
    simp at hpast
  · have hpast₁ : w₁.past = w.past := by simpa using hq.trail.past
    rw [hquiet.disk] at hwrote ⊢
    obtain ⟨found, hrun, hreports⟩ := Compiler.compile_reports
      (by rw [hpast₁, ← hpast]; simpa using hquiet.trail.past.symm)
      (by rwa [hpast₁, hq.trail.tools]) hwrote
    rcases hcases with ⟨f, f', w', hc, -⟩ | ⟨firmware, w', w'', hc, hr⟩
    · cases hc.symm.trans hrun
    · cases hc.symm.trans hrun
      rw [after_of_ok hr]
      exact ⟨_, hr, hreports⟩

/-- A build whose last program is the compiler has come to compile. -/
theorem build_of_compilation {b : Builder} {r : Request} {w : World} {runs : List Tool.Start}
    {s : Tool.Start} {board : Board}
    (hpast : ((b.build r).after w).past = w.past ++ (runs ++ [s]))
    (hs : s.invocation = b.compilation r board) :
    ∃ result w₁, w₁.tools = w.tools ∧ w₁.past = w.past ++ runs ∧
      b.build r w = b.compile r.root result w₁ := by
  -- the compiler is no translator: it runs in the sketch directory
  have hother : ∀ ss, (∀ t ∈ ss, ∃ source ∈ r.foundSources w.disk,
      t.invocation = b.translation r source) → ((b.build r).after w).past ≠ w.past ++ ss := by
    intro ss hss heq
    have hruns := List.append_cancel_left (hpast.symm.trans heq)
    obtain ⟨source, -, ht⟩ := hss s (hruns ▸ List.mem_append_right _ List.mem_cons_self)
    cases congrArg Tool.Invocation.cwd (hs.symm.trans ht)
  rcases prepare_cases b r w with ⟨w₁, -, hprep, ht₁, -⟩ | ⟨-, f, w₁, hprep, ht₁⟩
  · have hbuild := build_of_prepare hprep
    obtain ⟨ss, w₂, ht₂, hss, hcases⟩ := translateAll_runs b.translator (b.boardFor r)
      (r.sketchDir r.root) r.wantsSourceMap (r.foundSources w.disk) w₁
    have ht := ht₁.silent_trans ht₂
    rcases hcases with ⟨done, hok, -⟩ | ⟨f, herr⟩
    · rw [bind_of_ok hok] at hbuild
      rcases finish_cases b r r.root (.ofTranslation (r.sketchDir r.root) (b.boardFor r) done)
        w₂ with htr | ⟨-, w₃, -, ht₃, hfinish⟩
      · rw [← after_congr hbuild] at htr
        exact absurd (ht.trans_silent htr).past (hother ss hss)
      · replace hbuild := hbuild.trans hfinish
        obtain ⟨tail, htr, hcases⟩ := compile_trail b r.root _ w₃
        rw [← after_congr hbuild] at htr
        have hall := (ht.trans_silent ht₃).trans htr
        rcases hcases with rfl | ⟨_, d, -, -, -, rfl⟩
        · exact absurd hall.past (by simpa using hother ss hss)
        · have hruns := List.append_cancel_left (hall.past.symm.trans hpast)
          obtain ⟨rfl, -⟩ := List.append_inj' hruns rfl
          have ht₄ := ht.trans_silent ht₃
          exact ⟨_, w₃, ht₄.tools, ht₄.past, hbuild⟩
    · rw [bind_of_error herr] at hbuild
      rw [after_of_error hbuild] at hother
      exact absurd ht.past (hother ss hss)
  · have herr : b.build r w = .error f w₁ := bind_of_error hprep
    rw [after_of_error herr] at hother
    exact absurd ht₁.past (hother [] (by simp))

/-- **Whose firmware is reported.** When the compiler succeeds and writes firmware into the build
directory, some firmware there is reported, by the compilation and by the build. It is what this run
wrote exactly if no firmware left from before comes first in the order of preference, by suffix and
then by name; otherwise a leftover is reported. What is reported of this run depends on the names
that it wrote alone. -/
theorem Builder.firmware_is_written_iff (c : Compiler) (sketch : Sketch.Checked) (fqbn : String)
    (buildPath : Path) (b : Builder) (r : Request) (board : Board) (w : World)
    (runs : List Tool.Start) (s : Tool.Start) (written : List String) :
    let compiled := (c.compile sketch fqbn buildPath).after w
    let built := (b.build r).after w
    (compiled.past = w.past ++ [s] → (s.response w.tools w.past).succeeds = true →
      Compiler.Wrote s.disk compiled.disk buildPath written →
      ∃ found, c.compile sketch fqbn buildPath w = .ok found compiled ∧
        Compiler.Reports s.disk compiled.disk buildPath written found) ∧
    (built.past = w.past ++ (runs ++ [s]) → s.invocation = b.compilation r board →
      (s.response w.tools (w.past ++ runs)).succeeds = true →
      Compiler.Wrote s.disk built.disk (r.root.child cacheName) written →
      ∃ result, b.build r w = .ok result built ∧
        Compiler.Reports s.disk built.disk (r.root.child cacheName) written result.firmware) := by
  intro compiled built
  refine ⟨fun hpast hok hwrote => Compiler.compile_reports hpast hok hwrote, ?_⟩
  intro hpast hs hok hwrote
  obtain ⟨result, w₁, htools, hpast₁, hbuild⟩ := build_of_compilation hpast hs
  have hbuilt : built = (b.compile r.root result).after w₁ := after_congr hbuild
  rw [hbuilt] at hwrote ⊢
  rw [hbuild]
  refine compile_reports ?_ (by rwa [htools, hpast₁]) hwrote
  rw [← hbuilt, hpast₁, List.append_assoc]
  exact hpast

/-! ## The sample project, compiled -/

namespace Sample

def compileRequest : Request := { request with compile := true }

def cacheLoc : Location := ["p", "build", ".cache"]

/-- Every source translates, and the compiler writes one file into the build directory. -/
def compilerTools (name : String) : Tool.Tools := fun past i d =>
  if i.argv.getD 1 "" = "compile" then
    match d.writeFile ((Path.ofString (i.argv.getD 5 "")).child name) [] with
    | .ok d' => ⟨d'.tree, .ok ⟨1, .empty, .exited 0 [] []⟩⟩
    | .error _ => ⟨d.tree, .ok ⟨1, .empty, .exited 1 [] []⟩⟩
  else tools "" past i d

/-- The project with the files `names` in its build directory. -/
def cachedTree (names : List String) : Tree :=
  .ofList <| entries ++ [(["p", "build"], .directory), (cacheLoc, .directory)] ++
    names.map fun n => (cacheLoc ++ [n], .file [0] false)

def compilerWorld (name : String) (leftovers : List String) : World :=
  { world "" with disk := ⟨cachedTree leftovers, ⟨[], 0⟩, rfl⟩, tools := compilerTools name }

end Sample

/-- A leftover that comes after what the compiler wrote is not reported. -/
theorem Builder.firmware_is_written_iff_sample :
    let b := Builder.ofSettings Sample.settings false
    let r := Sample.compileRequest
    let w := Sample.compilerWorld "blink.ino.bin" ["blink.ino.uf2"]
    ∃ result, b.build r w = .ok result ((b.build r).after w) ∧
      result.firmware = some ⟨.slash, Sample.cacheLoc ++ ["blink.ino.bin"]⟩ := by
  intro b r w
  obtain ⟨board, hboard⟩ : ∃ board, Board.find? "uno" = some board :=
    Option.isSome_iff_exists.mp (by decide +kernel)
  -- the last program that was started, and the build directory before and after it
  obtain ⟨hlast, hsucceeds, hbefore, hstat, htarget, hnames⟩ :
      ((b.build r).after w).past.getLast?.map (·.invocation) =
        (Board.find? "uno").map (b.compilation r) ∧
      ((b.build r).after w).past.getLast?.map
        (fun s => (s.response w.tools ((b.build r).after w).past.dropLast).succeeds) =
          some true ∧
      ((b.build r).after w).past.getLast?.map
        (fun s => ((s.disk.target (r.root.child cacheName)).loc,
          s.disk.tree.childNames Sample.cacheLoc)) =
            some (Sample.cacheLoc, ["blink.ino.uf2"]) ∧
      ((b.build r).after w).disk.stat ((r.root.child cacheName).child "blink.ino.bin") =
        .ok (.file [] false) ∧
      (((b.build r).after w).disk.target (r.root.child cacheName)).loc = Sample.cacheLoc ∧
      ((b.build r).after w).disk.tree.childNames Sample.cacheLoc =
        ["blink.ino.bin", "blink.ino.uf2"] := by
    decide +kernel
  have hpath : (r.root.child cacheName).child "blink.ino.bin" =
      ⟨.slash, Sample.cacheLoc ++ ["blink.ino.bin"]⟩ := by
    decide +kernel
  have horder : Compiler.preference Compiler.firmwareSuffixes "blink.ino.bin" <
      Compiler.preference Compiler.firmwareSuffixes "blink.ino.uf2" := by
    decide +kernel
  have hfirst : w.past = [] := rfl
  clear_value b r w
  have hafter : ∀ n, n ∉ ["blink.ino.bin"] →
      ((b.build r).after w).disk.HasEntry (r.root.child cacheName) n → n = "blink.ino.uf2" := by
    intro n hnot hn
    rw [Disk.hasEntry_iff htarget, hnames] at hn
    rcases List.mem_cons.mp hn with rfl | hn
    · exact absurd List.mem_cons_self hnot
    · exact List.mem_singleton.mp hn
  rcases List.eq_nil_or_concat ((b.build r).after w).past with hnil | ⟨runs, s, hpast⟩
  · rw [hnil] at hsucceeds
    cases hsucceeds
  · rw [List.concat_eq_append] at hpast
    rw [hpast, hboard, List.getLast?_concat] at hlast
    rw [hpast, List.getLast?_concat, List.dropLast_concat] at hsucceeds
    rw [hpast, List.getLast?_concat] at hbefore
    obtain ⟨hloc, hleft⟩ := Prod.mk.inj (Option.some.inj hbefore)
    have hwrote : Compiler.Wrote s.disk ((b.build r).after w).disk (r.root.child cacheName)
        ["blink.ino.bin"] := by
      refine ⟨by decide, by decide, fun n hn => ⟨[], false, ?_⟩, fun n _ hnot hn => ?_⟩
      · rw [List.mem_singleton.mp hn, hstat]
      · rw [Disk.hasEntry_iff hloc, hleft, hafter n hnot hn]
        exact List.mem_cons_self
    obtain ⟨result, hrun, n, hfirmware, -, hiff, -⟩ :=
      (Builder.firmware_is_written_iff b.compiler ⟨r.sketchDir r.root, r.root⟩ board.fqbn r.root
        b r board w runs s ["blink.ino.bin"]).2 (by rw [hfirst, hpast, List.nil_append])
          (Option.some.inj hlast) (by rw [hfirst]; exact Option.some.inj hsucceeds) hwrote
    have hnew : n ∈ ["blink.ino.bin"] := by
      refine hiff.mpr fun m hm => ⟨_, List.mem_cons_self, ?_⟩
      rw [hafter m hm.unwritten hm.after]
      exact horder
    obtain rfl := List.mem_singleton.mp hnew
    exact ⟨result, hrun, by rw [hfirmware, hpath]⟩

/-- A leftover that comes first is reported: `blink.ino.hex`, which was there before and which no
program touched, and not `blink.ino.bin`, which the compiler wrote. Without the leftover the same
build reports `blink.ino.bin`. -/
theorem Builder.leftover_firmware_reported :
    let b := Builder.ofSettings Sample.settings false
    let r := Sample.compileRequest
    let w := Sample.compilerWorld "blink.ino.bin" ["blink.ino.hex"]
    let w' := (b.build r).after w
    (∃ result, b.build r w = .ok result w' ∧
      result.firmware = some ⟨.slash, Sample.cacheLoc ++ ["blink.ino.hex"]⟩) ∧
    (w.disk.tree.get? (Sample.cacheLoc ++ ["blink.ino.hex"]) = some (.file [0] false) ∧
      w.disk.tree.get? (Sample.cacheLoc ++ ["blink.ino.bin"]) = none) ∧
    (w'.disk.tree.get? (Sample.cacheLoc ++ ["blink.ino.hex"]) = some (.file [0] false) ∧
      w'.disk.tree.get? (Sample.cacheLoc ++ ["blink.ino.bin"]) = some (.file [] false)) ∧
    ∃ result v', b.build r (Sample.compilerWorld "blink.ino.bin" []) = .ok result v' ∧
      result.firmware = some ⟨.slash, Sample.cacheLoc ++ ["blink.ino.bin"]⟩ := by
  intro b r w w'
  obtain ⟨hold, hafter⟩ : ((b.build r).value? w).map Result.firmware =
        some (some ⟨.slash, Sample.cacheLoc ++ ["blink.ino.hex"]⟩) ∧
      w'.disk.tree.get? (Sample.cacheLoc ++ ["blink.ino.hex"]) = some (.file [0] false) ∧
      w'.disk.tree.get? (Sample.cacheLoc ++ ["blink.ino.bin"]) = some (.file [] false) := by
    decide +kernel
  have hnew : ((b.build r).value? (Sample.compilerWorld "blink.ino.bin" [])).map Result.firmware =
      some (some ⟨.slash, Sample.cacheLoc ++ ["blink.ino.bin"]⟩) := by
    decide +kernel
  obtain ⟨result, hr, hfirmware⟩ := Option.map_eq_some_iff.mp hold
  obtain ⟨result', hr', hfirmware'⟩ := Option.map_eq_some_iff.mp hnew
  exact ⟨⟨result, value?_eq_some_iff.mp hr, hfirmware⟩, by decide +kernel, hafter, result', _,
    value?_eq_some_iff.mp hr', hfirmware'⟩

end Build

end SketchBuild
