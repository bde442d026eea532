import SketchBuild.Proofs.Build.Calls

/-!
# Warnings that a build collects

The translator may warn even if it succeeds. A build keeps what it warned of, in the order of the
sources, for its result (`Builder.build_collects`).
-/

namespace SketchBuild

open SketchBuild.Action

/-- What a program warned of, if it succeeded. -/
def Tool.Response.warnings (r : Response) : List String :=
  match r.outcome with
  | .error _ => []
  | .ok q =>
    match q.ending with
    | .interrupted => []
    | .exited code _ stderr =>
      if code = 0 then Translator.warnings (Output.decode stderr) else []

/-- What programs that were started after each other warned of, in order. -/
def Tool.collected (tools : Tools) (past : List Start) : List Start → List String
  | [] => []
  | s :: ss => (s.response tools past).warnings ++ collected tools (past ++ [s]) ss

theorem Translator.warnings_of_report {t : Translator} {source output : Path} {r : Tool.Response}
    {o : Outcome} (h : t.report source output r = .ok o) : o.warnings = r.warnings := by
  unfold Translator.report at h
  unfold Tool.Response.warnings
  cases hout : r.outcome with
  | error e =>
      rw [hout] at h
      cases h
  | ok run =>
      rw [hout] at h
      dsimp only at h ⊢
      cases hend : run.ending with
      | interrupted =>
          rw [hend] at h
          cases h
      | exited code out err =>
          rw [hend] at h
          dsimp only at h ⊢
          by_cases hcode : code = 0
          · rw [if_pos hcode] at h ⊢
            cases h
            rfl
          · rw [if_neg hcode] at h
            split at h <;> cases h

namespace Build

/-- **Collecting.** The translator is run on the first sources, and what it warned of is kept if all
of them are translated. -/
theorem translateAll_collects (t : Translator) (board : Json) (dir : Path) (sourceMap : Bool)
    (sources : List Path) (w : World) :
    ∃ runs w', Trail w w' runs ∧
      runs.map (·.invocation) <+: sources.map (fun s =>
        t.invocation s (Sketch.outputOf dir s) board sourceMap) ∧
      ((∃ done, translateAll t dir board sourceMap sources w = .ok done w' ∧
          done.flatMap (·.warnings) = Tool.collected w.tools w.past runs) ∨
        ∃ f, translateAll t dir board sourceMap sources w = .error f w') := by
  induction sources generalizing w with
  | nil => exact ⟨[], w, .refl w, List.nil_prefix, Or.inl ⟨[], rfl, rfl⟩⟩
  | cons source rest ih =>
      by_cases htext : t.binary.isText = true ∧ board.isText = true
      · obtain ⟨w₁, hran, hrun⟩ := Translator.translate_apply htext.1 htext.2 source
          (Sketch.outputOf dir source) sourceMap w
        cases hrep : t.report source (Sketch.outputOf dir source)
            (w.response (t.invocation source (Sketch.outputOf dir source) board sourceMap)) with
        | error f =>
            rw [hrep] at hrun
            refine ⟨_, w₁, hran.trail, ?_, Or.inr ⟨f, bind_of_error hrun⟩⟩
            exact List.cons_prefix_cons.mpr ⟨rfl, List.nil_prefix⟩
        | ok o =>
            rw [hrep] at hrun
            obtain ⟨w₂, hq₂, hrun₂⟩ := translateAll_cons_of_ok hrun rest
            have ht₂ := hran.trail.trans_silent hq₂.trail
            -- the rest is translated in the world that the first run left
            obtain ⟨runs, w', htr, hinv, hcases⟩ := ih w₂
            rw [ht₂.tools, ht₂.past] at hcases
            refine ⟨_ :: runs, w', ht₂.trans htr, List.cons_prefix_cons.mpr ⟨rfl, hinv⟩, ?_⟩
            rw [hrun₂]
            rcases hcases with ⟨done, hok, hwarn⟩ | ⟨f, herr⟩
            · refine Or.inl ⟨o :: done, bind_of_ok hok, ?_⟩
              rw [List.flatMap_cons, hwarn, Translator.warnings_of_report hrep]
              rfl
            · exact Or.inr ⟨f, bind_of_error herr⟩
      · -- a command that is not all text cannot be started
        obtain ⟨f, w', herr, hq⟩ := translateAll_of_not_isText htext dir sourceMap source rest w
        exact ⟨[], w', hq.trail, List.nil_prefix, Or.inr ⟨f, herr⟩⟩

/-- What comes after the translation keeps the warnings. -/
theorem warnings_of_finish {b : Builder} {r : Request} {root : Path} {result result' : Result}
    {w w' : World} (h : b.finish r root result w = .ok result' w') :
    result'.warnings = result.warnings := by
  obtain ⟨-, w₁, -, hrest⟩ := bind_eq_ok_iff.mp h
  split at hrest
  · rcases compile_cases b root result w₁ with
      ⟨f, w₂, herr, -⟩ | ⟨board, sketch, w₂, -, -, -, -, -, hend⟩
    · cases herr.symm.trans hrest
    · rcases hend with ⟨f, f', w₃, -, herr⟩ | ⟨firmware, w₃, w₄, -, hok⟩
      · cases herr.symm.trans hrest
      · cases hok.symm.trans hrest
        rfl
  · cases hrest
    rfl

/-- The runs of the translator in a build, the compilation that may follow them, and the warnings of
its result. -/
theorem Builder.build_collects (b : Builder) (r : Request) (w : World) :
    ∃ runs tail, Trail w ((b.build r).after w) (runs ++ tail) ∧
      runs.map (·.invocation) <+: (r.foundSources w.disk).map (b.translation r) ∧
      (∀ s ∈ tail, ∃ board, s.invocation = b.compilation r board) ∧
      ∀ result w', b.build r w = .ok result w' →
        result.warnings = Tool.collected w.tools w.past runs := by
  rcases prepare_cases b r w with ⟨w₁, -, hprep, ht₁, -⟩ | ⟨-, f, w₁, hprep, ht₁⟩
  · obtain ⟨runs, w₂, ht₂, hinv, hcases⟩ := translateAll_collects b.translator (b.boardFor r)
      (r.sketchDir r.root) r.wantsSourceMap (r.foundSources w.disk) w₁
    have hpast : w₁.past = w.past := by simpa using ht₁.past
    rw [ht₁.tools, hpast] at hcases
    have hbuild := build_of_prepare hprep
    rcases hcases with ⟨done, hok, hwarn⟩ | ⟨f, herr⟩
    · rw [bind_of_ok hok] at hbuild
      obtain ⟨tail, ht₃, htail⟩ := finish_trail b r r.root
        (.ofTranslation (r.sketchDir r.root) (b.boardFor r) done) w₂
      rw [← after_congr hbuild] at ht₃
      refine ⟨runs, tail, ht₁.silent_trans (ht₂.trans ht₃), hinv, fun s hs => ?_,
        fun result w' hresult => ?_⟩
      · rcases htail with rfl | ⟨-, board, w₄, d, -, -, -, -, rfl⟩
        · cases hs
        · exact ⟨board, by rw [List.mem_singleton.mp hs]; rfl⟩
      · rw [warnings_of_finish (hbuild.symm.trans hresult)]
        exact hwarn
    · rw [bind_of_error herr] at hbuild
      rw [after_of_error hbuild]
      refine ⟨runs, [], ?_, hinv, by simp, fun result w' hresult => ?_⟩
      · rw [List.append_nil]
        exact ht₁.silent_trans ht₂
      · cases hbuild.symm.trans hresult
  · have herr : b.build r w = .error f w₁ := bind_of_error hprep
    rw [after_of_error herr]
    refine ⟨[], [], ht₁, List.nil_prefix, by simp, fun result w' hresult => ?_⟩
    cases herr.symm.trans hresult

end Build

end SketchBuild
