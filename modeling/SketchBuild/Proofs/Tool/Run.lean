import SketchBuild.Proofs.Action
import SketchBuild.Tool.Run

/-! # Running a program

A program is refused, interrupted or runs to its end: `Tool.run_cases` says what each of these means
for an action that runs it. In all three cases the program found the disk as the action had left it,
and the disk afterwards is the one that the program leaves (`Ran`). A command with a torn word is
not started at all (`Tool.run_of_torn`). -/

namespace SketchBuild

open Text (Str)

/-! ## Words -/

namespace Json

/-- Whether a value can be a word of a command. -/
def isWord (v : Json) : Bool := v.toStr.isText

@[simp] theorem isWord_text (s : String) : (Json.text s).isWord = true := rfl

theorem isWord_of_isText {v : Json} (h : v.isText = true) : v.isWord = true := by
  cases v with
  | str s => exact h
  | _ => cases h

theorem toStr_of_isWord {v : Json} (h : v.isWord = true) : v.toStr = .text v.display := by
  obtain ⟨t, ht⟩ := Str.isText_iff.mp h
  rw [display, ht]
  rfl

theorem map_toStr {ws : List Json} (h : ∀ v ∈ ws, v.isWord = true) :
    ws.map toStr = (ws.map display).map .text := by
  rw [List.map_map]
  exact List.map_congr_left fun v hv => toStr_of_isWord (h v hv)

theorem words_toStr {ws : List Json} (h : ∀ v ∈ ws, v.isWord = true) :
    Str.words (ws.map toStr) = .ok (ws.map display) := by
  rw [map_toStr h, Str.words_map_text]

theorem isText_spelling {ws : List Json} (h : ∀ v ∈ ws, v.isWord = true) :
    (Str.intercalate " " (ws.map toStr)).isText = true := by
  rw [Str.isText_intercalate, List.all_map]
  exact List.all_eq_true.mpr h

theorem exists_words_error {ws : List Json} {v : Json} (hv : v ∈ ws) (h : v.isWord = false) :
    ∃ e, Str.words (ws.map toStr) = .error e :=
  Str.exists_words_error (List.mem_map_of_mem hv) h

end Json

namespace Tool

/-- Whether a program ran to its end and succeeded. -/
def Response.succeeds (r : Response) : Bool :=
  match r.outcome with
  | .error _ => false
  | .ok run =>
    match run.ending with
    | .interrupted => false
    | .exited code _ _ => code == 0

theorem Response.succeeds_of_error {r : Response} {e : Refusal} (h : r.outcome = .error e) :
    r.succeeds = false := by
  rw [succeeds, h]

theorem Response.succeeds_of_ok {r : Response} {q : Run} (h : r.outcome = .ok q) :
    r.succeeds =
      match q.ending with
      | .interrupted => false
      | .exited code _ _ => code == 0 := by
  rw [succeeds, h]

/-- What became of a program, given those that were started before it. -/
def Start.response (s : Start) (tools : Tools) (before : List Start) : Response :=
  tools (before.map (·.invocation)) s.invocation s.disk

/-- Programs that were started one after the other all succeeded. -/
def AllSucceed (tools : Tools) (before : List Start) : List Start → Prop
  | [] => True
  | s :: ss => (s.response tools before).succeeds = true ∧ AllSucceed tools (before ++ [s]) ss

end Tool

/-- What becomes of a program that is started now. -/
def World.response (w : World) (i : Tool.Invocation) : Tool.Response :=
  Tool.Start.response ⟨i, w.disk⟩ w.tools w.past

/-- The program `i`, and no other, was run between `w` and `w'`, and left the disk that there is
now. -/
structure Ran (w : World) (i : Tool.Invocation) (w' : World) : Prop where
  trail : Trail w w' [⟨i, w.disk⟩]
  disk : w'.disk = w.disk.withTree (w.response i).tree

theorem Quiet.response {w w' : World} (h : Quiet w w') (i : Tool.Invocation) :
    w'.response i = w.response i := by
  have hp : w'.past = w.past := by simpa using h.trail.past
  rw [World.response, World.response, h.disk, h.trail.tools, hp]

theorem Ran.of_quiet {w w₁ w₂ w₃ : World} {i : Tool.Invocation} (h₁ : Quiet w w₁)
    (h : Ran w₁ i w₂) (h₂ : Quiet w₂ w₃) : Ran w i w₃ where
  trail := by
    rw [← h₁.disk]
    exact h₁.trail.silent_trans (h.trail.trans_silent h₂.trail)
  disk := by rw [h₂.disk, h.disk, h₁.disk, h₁.response]

namespace Tool

open SketchBuild.Action

/-! ## Starting -/

/-- The world in which a program has just been started. -/
def started (w : World) (i : Invocation) : World :=
  { w.emit (.called i) with
    past := w.past ++ [⟨i, w.disk⟩], disk := w.disk.withTree (w.response i).tree }

theorem ran_started (w : World) (i : Invocation) : Ran w i (started w i) :=
  ⟨⟨rfl, by simp [started, World.calls, World.emit], rfl, rfl, rfl⟩, rfl⟩

theorem start_apply {w : World} {i : Invocation} (hi : i.argv ≠ []) :
    start i w =
      (match (w.response i).outcome with
        | .error r => (throw (Fault.file ⟨r, .text (i.argv.headD "")⟩) : Action Run)
        | .ok q => pure q) (started w i) := by
  have he : ¬ i.argv.isEmpty = true := by simpa using hi
  unfold start
  rw [bind_of_ok (rfl : emit (.called i) w = .ok () (w.emit (.called i))), if_neg he]
  rfl

theorem start_of_error {w : World} {i : Invocation} {r : Refusal} (hi : i.argv ≠ [])
    (h : (w.response i).outcome = .error r) :
    start i w = .error (.file ⟨r, .text (i.argv.headD "")⟩) (started w i) := by
  rw [start_apply hi, h]
  rfl

theorem start_of_ok {w : World} {i : Invocation} {q : Run} (hi : i.argv ≠ [])
    (h : (w.response i).outcome = .ok q) : start i w = .ok q (started w i) := by
  rw [start_apply hi, h]
  rfl

theorem shows_noteTeardown (e : ProcessInfo.Event) : Shows (noteTeardown e) := by
  have hemit : Shows (emit (.process e)) := fun w => ⟨_, rfl, .emit (by simp)⟩
  unfold noteTeardown
  split
  · exact hemit.bind (.log _ _)
  · exact hemit.bind .pure

theorem teardown_apply (table : ProcessTable) (pid seconds : Int) (w : World) :
    ∃ n w', teardown table pid seconds w = .ok n w' ∧ Quiet w w' := by
  unfold teardown
  obtain ⟨w', hq, hrun⟩ := (Shows.forM shows_noteTeardown
    (ProcessInfo.terminate table pid seconds).1).bind_apply
      (fun _ => pure (ProcessInfo.terminate table pid seconds).2) w
  exact ⟨_, w', hrun, hq⟩

/-! ## Running to the end -/

/-- A command with a torn word is told and not started. -/
theorem run_of_torn {command : List Str} {e : Text.Unencodable} (h : Str.words command = .error e)
    (cwd : Option Path) (merge : Bool) (w : World) :
    ∃ w', Quiet w w' ∧ run command cwd merge w = .error (.pieces e) w' := by
  unfold run
  obtain ⟨w₁, hq₁, hrun⟩ :=
    (Shows.log .debug ("Running: " ++ Str.intercalate " " command)).bind_apply _ w
  rw [hrun, h]
  exact ⟨w₁, hq₁, rfl⟩

/-- **The three ways in which a run ends.** -/
theorem run_cases {command : List Str} {argv : List String} (cwd : Option Path) (merge : Bool)
    (w : World) (hwords : Str.words command = .ok argv) (hargv : argv ≠ []) :
    let i : Invocation := { argv, cwd := cwd.map Path.toString, merge }
    (∃ r w', (w.response i).outcome = .error r ∧ Ran w i w' ∧
      run command cwd merge w = .error (.file ⟨r, .text (argv.headD "")⟩) w') ∨
    (∃ q w', (w.response i).outcome = .ok q ∧ q.ending = .interrupted ∧ Ran w i w' ∧
      run command cwd merge w = .error .interrupted w') ∨
    (∃ q code out err w', (w.response i).outcome = .ok q ∧ q.ending = .exited code out err ∧
      Ran w i w' ∧ run command cwd merge w = .ok (.ofStreams merge code out err) w') := by
  intro i
  unfold run
  obtain ⟨w₁, hq₁, hrun⟩ :=
    (Shows.log .debug ("Running: " ++ Str.intercalate " " command)).bind_apply _ w
  rw [hrun, hwords]
  rw [bind_of_ok (rfl : ofExcept Fault.pieces (.ok argv) w₁ = .ok argv w₁)]
  have hresp : w₁.response i = w.response i := hq₁.response i
  cases hout : (w.response i).outcome with
  | error r =>
      rw [bind_of_error (start_of_error hargv (by rw [hresp, hout]))]
      exact Or.inl ⟨r, _, rfl, .of_quiet hq₁ (ran_started w₁ i) (.refl _), rfl⟩
  | ok q =>
      rw [bind_of_ok (start_of_ok hargv (by rw [hresp, hout]))]
      cases hend : q.ending with
      | interrupted =>
          -- what the program has started is ended first
          let program := argv.headD ""
          obtain ⟨w₂, hq₂, hrun₂⟩ := (Shows.log .warning
            s!"Interrupted, terminating {program} (pid {q.pid})").bind_apply
              (fun _ => teardown q.processes q.pid ProcessInfo.defaultWait >>=
                fun _ => (throw .interrupted : Action Output)) (started w₁ i)
          obtain ⟨n, w₃, hrun₃, hq₃⟩ :=
            teardown_apply q.processes q.pid ProcessInfo.defaultWait w₂
          refine Or.inr (Or.inl ⟨q, w₃, rfl, hend,
            .of_quiet hq₁ (ran_started w₁ i) (hq₂.trans hq₃), ?_⟩)
          refine hrun₂.trans ?_
          rw [bind_of_ok hrun₃]
          rfl
      | exited code out err =>
          let name := (Path.ofString (argv.headD "")).name
          obtain ⟨w₂, hq₂, hrun₂⟩ := (Shows.log .debug
            s!"{name} exited with code {code}").bind_apply
              (fun _ => (pure (.ofStreams merge code out err) : Action Output)) (started w₁ i)
          exact Or.inr (Or.inr ⟨q, code, out, err, w₂, rfl, hend,
            .of_quiet hq₁ (ran_started w₁ i) hq₂, hrun₂⟩)

/-- What is read off a response: the output of a program that ended, or why there is none. -/
def reading (program : String) (merge : Bool) (r : Response) : Except Fault Output :=
  match r.outcome with
  | .error e => .error (.file ⟨e, .text program⟩)
  | .ok q =>
    match q.ending with
    | .interrupted => .error .interrupted
    | .exited code out err => .ok (.ofStreams merge code out err)

/-- A program that is run is started once, and what is read off its response is the result. -/
theorem run_apply {command : List Str} {argv : List String} (cwd : Option Path) (merge : Bool)
    (w : World) (hwords : Str.words command = .ok argv) (hargv : argv ≠ []) :
    let i : Invocation := { argv, cwd := cwd.map Path.toString, merge }
    ∃ w', Ran w i w' ∧ run command cwd merge w =
      (ofExcept id (reading (argv.headD "") merge (w.response i))) w' := by
  intro i
  rcases run_cases cwd merge w hwords hargv with
    ⟨r, w', hout, hran, hr⟩ | ⟨q, w', hout, hend, hran, hr⟩ |
      ⟨q, code, out, err, w', hout, hend, hran, hr⟩
  · have hread : reading (argv.headD "") merge (w.response i) =
        .error (.file ⟨r, .text (argv.headD "")⟩) := by
      rw [reading, hout]
    rw [hr, hread]
    exact ⟨w', hran, rfl⟩
  · have hread : reading (argv.headD "") merge (w.response i) = .error .interrupted := by
      rw [reading, hout]
      dsimp only
      rw [hend]
    rw [hr, hread]
    exact ⟨w', hran, rfl⟩
  · have hread : reading (argv.headD "") merge (w.response i) =
        .ok (.ofStreams merge code out err) := by
      rw [reading, hout]
      dsimp only
      rw [hend]
    rw [hr, hread]
    exact ⟨w', hran, rfl⟩

/-! ## Finding a program -/

/-- Whether the program that a setting names is found on a disk. -/
def installed (d : Disk) (env : Environment) : Json → Bool
  | .text name => (find? d env name).isSome
  | _ => false

/-- A search that ends at all leaves the world as it was. -/
theorem findSetting_eq_ok {setting : Json} {w w' : World} {found : Option Path}
    (h : findSetting setting w = .ok found w') :
    w' = w ∧ found.isSome = installed w.disk w.env setting := by
  unfold findSetting at h
  split at h
  · next hfalse =>
      cases h
      refine ⟨rfl, ?_⟩
      cases setting with
      | str s =>
          cases s with
          | text name =>
              have hempty : name.isEmpty = true := by
                simpa [Json.truthy, Str.isEmpty] using hfalse
              simp [installed, find?, hempty]
          | torn ps hps => rfl
      | _ => rfl
  · split at h
    · cases h
      exact ⟨rfl, rfl⟩
    · cases h
      exact ⟨rfl, rfl⟩
    · cases h

/-- A search stops only for a setting that is no string. -/
theorem findSetting_eq_error {setting : Json} {w w' : World} {f : Fault}
    (h : findSetting setting w = .error f w') :
    w' = w ∧ installed w.disk w.env setting = false ∧ setting.isText = false ∧
      ∃ e, f = .kind e := by
  unfold findSetting at h
  split at h
  · cases h
  · split at h
    · cases h
    · cases h
    · next htext htorn =>
        cases h
        refine ⟨rfl, ?_⟩
        cases setting with
        | str s =>
            cases s with
            | text name => exact absurd rfl (htext name)
            | torn ps hps => exact absurd rfl (htorn ps hps)
        | _ => exact ⟨rfl, rfl, _, rfl⟩

theorem after_findSetting (setting : Json) (w : World) : (findSetting setting).after w = w := by
  cases h : findSetting setting w with
  | ok found w' => rw [after_of_ok h, (findSetting_eq_ok h).1]
  | error f w' => rw [after_of_error h, (findSetting_eq_error h).1]

theorem silent_findSetting (setting : Json) : Silent (findSetting setting) :=
  Leaves.of_eq (T := (Trail · · [])) Trail.refl (after_findSetting setting)

/-! ## Spelling a command -/

/-- Whether a value is a string, torn or not. -/
def isString : Json → Bool
  | .str _ => true
  | _ => false

theorem isString_of_isText {v : Json} (h : v.isText = true) : isString v = true := by
  cases v with
  | str s => rfl
  | _ => cases h

theorem badWord?_eq_none_iff {ws : List Json} {i : Nat} :
    badWord? i ws = none ↔ ∀ v ∈ ws, isString v = true := by
  induction ws generalizing i with
  | nil => simp [badWord?]
  | cons v ws ih => cases v <;> simp [badWord?, isString, ih]

/-- The text of a command whose words are texts. -/
theorem spell_of_isText {command : List Json} (h : ∀ v ∈ command, v.isText = true) :
    ∃ line, spell command = pure (.text line) := by
  have hwords : ∀ v ∈ command, v.isWord = true := fun v hv => Json.isWord_of_isText (h v hv)
  obtain ⟨line, hline⟩ := Str.isText_iff.mp (Json.isText_spelling hwords)
  refine ⟨line, ?_⟩
  rw [spell, badWord?_eq_none_iff.mpr fun v hv => isString_of_isText (h v hv), ← hline]

/-- A command with a word that is no text is not spelled, or it is torn. -/
theorem spell_of_not_isText {command : List Json} {v : Json} (hv : v ∈ command)
    (h : v.isText = false) :
    (∃ e, spell command = throw (.kind e)) ∨
      ∃ line, line.isText = false ∧ spell command = pure line ∧
        ∃ e, Str.words (command.map Json.toStr) = .error e := by
  cases hb : badWord? 0 command with
  | some e => exact .inl ⟨e, by rw [spell, hb]⟩
  | none =>
      have hword : v.isWord = false := by
        have hstring := badWord?_eq_none_iff.mp hb v hv
        cases v with
        | str s => exact h
        | _ => cases hstring
      refine .inr ⟨_, ?_, by rw [spell, hb], Json.exists_words_error hv hword⟩
      rw [Str.isText_intercalate, List.all_map, List.all_eq_false]
      exact ⟨v, hv, by simpa [Json.isWord] using hword⟩

theorem silent_spell (command : List Json) : Silent (spell command) := by
  unfold spell
  split
  · exact .throw _
  · exact .pure _

end Tool

end SketchBuild
