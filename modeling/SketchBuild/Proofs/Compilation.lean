import SketchBuild.Firmware
import SketchBuild.Proofs.Tool.Run
import SketchBuild.Proofs.Sketch.Directory

/-! # Compiling a sketch

The compiler is one program, started when the build directory was made. If it succeeds, the firmware
is looked for on the disk that it left (`Compiler.compile_cases`). -/

namespace SketchBuild.Compiler

open SketchBuild.Action

/-- The program that compiles a sketch directory. -/
def invocation (c : Compiler) (dir : Path) (fqbn : String) (buildPath : Path) :
    Tool.Invocation where
  argv := [c.binary.display, "compile", "--fqbn", fqbn, "--build-path", buildPath.toString,
    "--warnings", "all"] ++ (if c.verbose then ["--verbose"] else []) ++ [dir.toString]
  cwd := some dir.toString
  merge := true

theorem map_display_command (c : Compiler) (sketch : Sketch.Checked) (fqbn : String)
    (buildPath : Path) :
    (c.command sketch fqbn buildPath).map Json.display =
      (c.invocation sketch.dir fqbn buildPath).argv := by
  unfold command invocation
  cases c.verbose <;> rfl

theorem isWord_of_mem_command {c : Compiler} (h : c.binary.isWord = true) (sketch : Sketch.Checked)
    (fqbn : String) (buildPath : Path) :
    ∀ v ∈ c.command sketch fqbn buildPath, v.isWord = true := by
  unfold command
  cases c.verbose <;> simp [h]

/-- A compiler whose name is torn is not started. -/
theorem run_of_torn {c : Compiler} (h : c.binary.isWord = false) (sketch : Sketch.Checked)
    (fqbn : String) (buildPath : Path) (w : World) :
    ∃ f w', Quiet w w' ∧ c.run sketch fqbn buildPath w = .error f w' := by
  have hmem : c.binary ∈ c.command sketch fqbn buildPath := by simp [command]
  obtain ⟨e, hwords⟩ := Json.exists_words_error hmem h
  obtain ⟨w', hq, hr⟩ := Tool.run_of_torn hwords (some sketch.dir) true w
  exact ⟨_, w', hq, tryCatch_of_error hr⟩

/-- The compiler is refused or interrupted, or it runs to its end. -/
theorem run_cases {c : Compiler} (h : c.binary.isWord = true) (sketch : Sketch.Checked)
    (fqbn : String) (buildPath : Path) (w : World) :
    let i := c.invocation sketch.dir fqbn buildPath
    ∃ w', Ran w i w' ∧
      ((w.response i).succeeds = false ∧ (∃ f, c.run sketch fqbn buildPath w = .error f w') ∨
        ∃ q code out err, (w.response i).outcome = .ok q ∧ q.ending = .exited code out err ∧
          c.run sketch fqbn buildPath w = .ok (.ofStreams true code out err) w') := by
  intro i
  have hargv : i.argv ≠ [] := by simp [i, invocation]
  have hwords := Json.words_toStr (isWord_of_mem_command h sketch fqbn buildPath)
  rw [map_display_command] at hwords
  unfold run
  rcases Tool.run_cases (some sketch.dir) true w hwords hargv with
    ⟨r, w', hout, hran, hr⟩ | ⟨q, w', hout, hend, hran, hr⟩ |
      ⟨q, code, out, err, w', hout, hend, hran, hr⟩
  · refine ⟨w', hran, Or.inl ⟨Tool.Response.succeeds_of_error hout, ?_⟩⟩
    rw [tryCatch_of_error hr]
    cases r <;> exact ⟨_, rfl⟩
  · refine ⟨w', hran, Or.inl ⟨?_, _, tryCatch_of_error hr⟩⟩
    exact (Tool.Response.succeeds_of_ok hout).trans (by rw [hend])
  · exact ⟨w', hran, Or.inr ⟨q, code, out, err, hout, hend, tryCatch_of_ok hr⟩⟩

/-- Looking for firmware changes nothing. -/
theorem after_findFirmware (dir : Path) (w : World) : (findFirmware dir).after w = w := by
  unfold findFirmware
  induction firmwareSuffixes with
  | nil => rfl
  | cons suffix rest ih =>
      unfold firstWith
      cases hl : w.disk.list dir suffix with
      | error e => exact after_bind_of_error (ask_of_error hl)
      | ok ps =>
          rw [after_bind_of_ok (ask_of_ok hl)]
          cases ps with
          | nil => exact ih
          | cons p ps => rfl

/-- **Compiling a sketch** stops before the compiler is started, or with a compiler that does not
succeed, or looks for firmware on the disk that the compiler left. -/
theorem compile_cases (c : Compiler) (sketch : Sketch.Checked) (fqbn : String) (buildPath : Path)
    (w : World) :
    let i := c.invocation sketch.dir fqbn buildPath
    (∃ f w', c.compile sketch fqbn buildPath w = .error f w' ∧ Trail w w' []) ∨
    ∃ d w', w.disk.makePath buildPath = (none, d) ∧ Trail w w' [⟨i, d⟩] ∧
      w'.disk = d.withTree (Tool.Start.response ⟨i, d⟩ w.tools w.past).tree ∧
      ((Tool.Start.response ⟨i, d⟩ w.tools w.past).succeeds = false ∧
          (∃ f, c.compile sketch fqbn buildPath w = .error f w') ∨
        (Tool.Start.response ⟨i, d⟩ w.tools w.past).succeeds = true ∧
          c.compile sketch fqbn buildPath w = findFirmware buildPath w') := by
  intro i
  generalize hres : c.compile sketch fqbn buildPath w = res
  unfold compile at hres
  rcases hm : w.disk.makePath buildPath with ⟨failure, d⟩
  cases failure with
  | some e =>
      rw [bind_of_error (makePath_of_some hm)] at hres
      exact Or.inl ⟨_, _, hres.symm, .withDisk w d⟩
  | none =>
      let w₁ : World := { w with disk := d }
      have ht₁ : Trail w w₁ [] := .withDisk w d
      rw [bind_of_ok (makePath_of_none hm)] at hres
      cases hl : d.list sketch.dir Sketch.outputSuffix with
      | error e =>
          have hask : Sketch.outputs sketch.dir w₁ = .error (.file e) w₁ := ask_of_error hl
          rw [bind_of_error hask] at hres
          exact Or.inl ⟨_, w₁, hres.symm, ht₁⟩
      | ok outputs =>
          have hask : Sketch.outputs sketch.dir w₁ = .ok outputs w₁ := ask_of_ok hl
          rw [bind_of_ok hask] at hres
          dsimp only at hres
          obtain ⟨w₂, hq₂, hrun₂⟩ := (Shows.log .info _).bind_apply _ w₁
          rw [hrun₂] at hres
          cases hbinary : c.binary.isWord with
          | false =>
              obtain ⟨f, w₃, hq₃, hr⟩ := run_of_torn hbinary sketch fqbn buildPath w₂
              rw [bind_of_error hr] at hres
              exact Or.inl ⟨f, w₃, hres.symm, ht₁.silent_trans (hq₂.trans hq₃).trail⟩
          | true =>
          obtain ⟨w₃, hran, hcases⟩ := run_cases hbinary sketch fqbn buildPath w₂
          rw [hq₂.response] at hcases
          replace hran : Ran w₁ i w₃ := .of_quiet hq₂ hran (.refl _)
          have ht₃ : Trail w w₃ [⟨i, d⟩] := ht₁.silent_trans hran.trail
          refine Or.inr ?_
          rcases hcases with ⟨hfail, f, hr⟩ | ⟨q, code, out, err, hout, hend, hr⟩
          · rw [bind_of_error hr] at hres
            exact ⟨d, w₃, rfl, ht₃, hran.disk, Or.inl ⟨hfail, f, hres.symm⟩⟩
          · have hsucc : (w₁.response i).succeeds = (code == 0) := by
              rw [Tool.Response.succeeds_of_ok hout, hend]
            rw [bind_of_ok hr] at hres
            by_cases hcode : code = 0
            · subst hcode
              have hok : ¬ (!(Tool.Output.ofStreams true 0 out err).success) = true := by
                simp [Tool.Output.ofStreams, Tool.Output.success]
              rw [if_neg hok] at hres
              obtain ⟨w₄, hq₄, hrun₄⟩ := (Shows.print _).ite_bind_apply
                ((c.verbose && !(Tool.Output.ofStreams true 0 out err).stdout.isEmpty) = true) _ w₃
              rw [hrun₄] at hres
              exact ⟨d, w₄, rfl, ht₃.trans_silent hq₄.trail, hq₄.disk.trans hran.disk,
                Or.inr ⟨hsucc, hres.symm⟩⟩
            · have hfailed : (!(Tool.Output.ofStreams true code out err).success) = true := by
                simpa [Tool.Output.ofStreams, Tool.Output.success] using hcode
              rw [if_pos hfailed] at hres
              refine ⟨d, w₃, rfl, ht₃, hran.disk, Or.inl ⟨?_, ?_⟩⟩
              · exact hsucc.trans (by simpa using hcode)
              · rw [← hres]
                exact ⟨_, rfl⟩

end SketchBuild.Compiler
