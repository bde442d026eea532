import SketchBuild.Proofs.Tool.Run
import SketchBuild.Translator

/-! # Translating a source

To translate a source is to run one program and to read what became of it. The program depends on
nothing but the request (`Translator.invocation`), and what is read depends on nothing but the
response (`Translator.report`). `translate_apply` puts the two together. -/

namespace SketchBuild.Translator

open SketchBuild.Action

/-- The program that translates a source. -/
def invocation (t : Translator) (source output : Path) (board : Json) (sourceMap : Bool) :
    Tool.Invocation where
  argv := [t.binary.display, source.toString, output.toString, "--board", board.display] ++
    if sourceMap then ["--source-map"] else []
  cwd := none
  merge := false

/-- A refusal to start the translator, as the build reports it. -/
def refusalFault (t : Translator) : Refusal → Fault
  | .notFound => .build (.tool (.translatorNotFound t.binary.toStr))
  | r => .file ⟨r, .text t.binary.display⟩

/-- What a response of the translator means: an outcome if it succeeded, and otherwise the fault
that stops the build. -/
def report (t : Translator) (source output : Path) (r : Tool.Response) : Except Fault Outcome :=
  match r.outcome with
  | .error e => .error (t.refusalFault e)
  | .ok run =>
    match run.ending with
    | .interrupted => .error .interrupted
    | .exited code _ stderr =>
      if code = 0 then .ok ⟨source, output, warnings (Tool.Output.decode stderr)⟩
      else
        match Diagnostic.normalize .translate (some source.toString)
            (Tool.Output.decode stderr) with
        | .ok traceback => .error (.build (.translatorFailed source traceback))
        | .error e => .error (.digits e)

/-- A value or a fault, told of a run that ended in a world. -/
def endIn {α : Type} (w : World) : Except Fault α → EStateM.Result Fault World α
  | .ok a => .ok a w
  | .error f => .error f w

/-! ## The words of the command -/

theorem map_display_command (t : Translator) (source output : Path) (board : Json)
    (sourceMap : Bool) :
    (t.command source output board sourceMap).map Json.display =
      (t.invocation source output board sourceMap).argv := by
  cases sourceMap <;> rfl

theorem isText_of_mem_command {t : Translator} {board : Json} (ht : t.binary.isText = true)
    (hb : board.isText = true) (source output : Path) (sourceMap : Bool) :
    ∀ v ∈ t.command source output board sourceMap, v.isText = true := by
  cases sourceMap <;> simp [command, ht, hb]

/-! ## Running -/

/-- The three ways in which a run of the translator ends. -/
theorem run_cases {t : Translator} {command : List Json} (hhead : command.head? = some t.binary)
    (htext : ∀ v ∈ command, v.isText = true) (w : World) :
    let i : Tool.Invocation := { argv := command.map Json.display, cwd := none, merge := false }
    (∃ r w', (w.response i).outcome = .error r ∧ Ran w i w' ∧
      t.run command w = .error (t.refusalFault r) w') ∨
    (∃ q w', (w.response i).outcome = .ok q ∧ q.ending = .interrupted ∧ Ran w i w' ∧
      t.run command w = .error .interrupted w') ∨
    (∃ q code out err w', (w.response i).outcome = .ok q ∧ q.ending = .exited code out err ∧
      Ran w i w' ∧ t.run command w = .ok (.ofStreams false code out err) w') := by
  intro i
  obtain ⟨rest, rfl⟩ : ∃ rest, command = t.binary :: rest := List.head?_eq_some_iff.mp hhead
  obtain ⟨line, hspell⟩ := Tool.spell_of_isText htext
  unfold run
  rw [hspell, pure_bind]
  obtain ⟨w₁, hq₁, hrun₁⟩ :=
    (Shows.print ("  core  " ++ line)).ite_bind_apply (t.verbose = true) _ w
  rw [Text.Str.text_append_text, printStr_text, hrun₁]
  dsimp only
  obtain ⟨w₂, hq₂, hrun₂⟩ := (Shows.log .info _).bind_apply _ w₁
  have hq : Quiet w w₂ := hq₁.trans hq₂
  rw [hrun₂, ← hq.response i]
  have hwords : Text.Str.words ((t.binary :: rest).map Json.toStr) =
      .ok ((t.binary :: rest).map Json.display) :=
    Json.words_toStr fun v hv => Json.isWord_of_isText (htext v hv)
  rcases Tool.run_cases none false w₂ hwords (by simp) with
    ⟨r, w', hout, hran, hr⟩ | ⟨q, w', hout, hend, hran, hr⟩ |
      ⟨q, code, out, err, w', hout, hend, hran, hr⟩
  · rw [tryCatch_of_error hr]
    refine Or.inl ⟨r, w', hout, .of_quiet hq hran (.refl _), ?_⟩
    cases r <;> rfl
  · rw [tryCatch_of_error hr]
    exact Or.inr (Or.inl ⟨q, w', hout, hend, .of_quiet hq hran (.refl _), rfl⟩)
  · rw [tryCatch_of_ok hr]
    exact Or.inr (Or.inr ⟨q, code, out, err, w', hout, hend, .of_quiet hq hran (.refl _), rfl⟩)

/-- **Translating a source** runs one program and reports what became of it. -/
theorem translate_apply {t : Translator} {board : Json} (ht : t.binary.isText = true)
    (hb : board.isText = true) (source output : Path) (sourceMap : Bool) (w : World) :
    let i := t.invocation source output board sourceMap
    ∃ w', Ran w i w' ∧
      t.translate source output board sourceMap w =
        endIn w' (t.report source output (w.response i)) := by
  intro i
  have hi : i = { argv := (t.command source output board sourceMap).map Json.display
                  cwd := none, merge := false } := by
    rw [map_display_command]
    rfl
  rw [hi, translate]
  rcases run_cases (t := t) rfl (isText_of_mem_command ht hb source output sourceMap) w with
    ⟨r, w', hout, hran, hr⟩ | ⟨q, w', hout, hend, hran, hr⟩ |
      ⟨q, code, out, err, w', hout, hend, hran, hr⟩
  · refine ⟨w', hran, ?_⟩
    rw [bind_of_error hr, report, hout]
    rfl
  · refine ⟨w', hran, ?_⟩
    rw [bind_of_error hr, report, hout]
    simp only [hend]
    rfl
  · refine ⟨w', hran, ?_⟩
    rw [bind_of_ok hr, report, hout]
    simp only [hend]
    by_cases hcode : code = 0
    · subst hcode
      rfl
    · -- the messages become a traceback, unless a line number in them is too long to read
      have hfailed : (!(Tool.Output.ofStreams false code out err).success) = true := by
        simpa [Tool.Output.ofStreams, Tool.Output.success] using hcode
      rw [if_pos hfailed, if_neg hcode]
      change (ofExcept .digits (Diagnostic.normalize .translate (some source.toString)
        (Tool.Output.decode err)) >>= fun _ => _) w' = _
      cases Diagnostic.normalize .translate (some source.toString) (Tool.Output.decode err) <;> rfl

/-- A command with a word that is no text is not run, for its kind or for a torn string. -/
theorem run_of_not_isText (t : Translator) {command : List Json} {v : Json} (hv : v ∈ command)
    (h : v.isText = false) (w : World) :
    ∃ f w', t.run command w = .error f w' ∧ Quiet w w' ∧
      ((∃ e, f = .kind e) ∨ ∃ e, f = .pieces e) := by
  unfold run
  rcases Tool.spell_of_not_isText hv h with ⟨e, hspell⟩ | ⟨line, hline, hspell, e, hwords⟩
  · rw [hspell]
    exact ⟨.kind e, w, rfl, .refl w, .inl ⟨e, rfl⟩⟩
  rw [hspell, pure_bind]
  -- a torn word is refused by the console, if it is to be shown, and by the system otherwise
  cases t.verbose with
  | true =>
      have htorn : ("  core  " ++ line : Text.Str).isText = false := by simp [hline]
      obtain ⟨e', hprint⟩ := printStr_of_torn htorn
      rw [if_pos rfl, hprint]
      exact ⟨.pieces e', w, rfl, .refl w, .inr ⟨e', rfl⟩⟩
  | false =>
      rw [if_neg (by simp)]
      obtain ⟨w₁, hq₁, hrun₁⟩ := (Shows.log .info ("godotino-core: " ++ line)).bind_apply _ w
      obtain ⟨w₂, hq₂, hrun₂⟩ := Tool.run_of_torn hwords none false w₁
      refine ⟨.pieces e, w₂, ?_, hq₁.trans hq₂, .inr ⟨e, rfl⟩⟩
      refine hrun₁.trans ?_
      rw [tryCatch_of_error hrun₂]
      rfl

/-- A setting that is no text stops the translation before any program is started. -/
theorem translate_of_not_isText {t : Translator} {board : Json}
    (h : ¬ (t.binary.isText = true ∧ board.isText = true)) (source output : Path)
    (sourceMap : Bool) (w : World) :
    ∃ f w', t.translate source output board sourceMap w = .error f w' ∧ Quiet w w' := by
  have hbad : ∃ v ∈ t.command source output board sourceMap, v.isText = false := by
    by_cases ht : t.binary.isText = true
    · have hb : board.isText = false := by simpa [ht] using h
      exact ⟨board, by simp [command], hb⟩
    · exact ⟨t.binary, by simp [command], by simpa using ht⟩
  obtain ⟨v, hv, hfalse⟩ := hbad
  obtain ⟨f, w', hrun, hq, -⟩ := t.run_of_not_isText hv hfalse w
  exact ⟨f, w', bind_of_error hrun, hq⟩

theorem isOk_report (t : Translator) (source output : Path) (r : Tool.Response) :
    (t.report source output r).isOk = r.succeeds := by
  unfold report Tool.Response.succeeds
  cases r.outcome with
  | error e => rfl
  | ok run =>
      cases hend : run.ending with
      | interrupted => simp [hend, Except.isOk, Except.toBool]
      | exited code out err =>
          by_cases hcode : code = 0
          · simp [hend, hcode, Except.isOk, Except.toBool]
          · simp only [hend, if_neg hcode]
            split <;> simp [hcode, Except.isOk, Except.toBool]

/-- An outcome that is reported names its source and its output. -/
theorem output_of_report {t : Translator} {source output : Path} {r : Tool.Response}
    {o : Outcome} (h : t.report source output r = .ok o) : o.output = output := by
  unfold report at h
  split at h
  · cases h
  · split at h
    · cases h
    · split at h
      · cases h
        rfl
      · split at h <;> cases h

end SketchBuild.Translator
