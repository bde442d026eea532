import SketchBuild.CommandLine.Run
import SketchBuild.Proofs.Command
import SketchBuild.Proofs.Settings.Store

/-!
# Settings on the command line

`config set` either changes one setting in the settings file or leaves the file as it is. What
`config get` prints before and after tells the difference.
-/

namespace SketchBuild

namespace Settings

theorem Key.ofWord?_eq_some_iff {word : String} {k : Key} :
    Key.ofWord? word = some k ↔ k.name = Key.normalize word := by
  have hinj : ∀ {k k' : Key}, k.name = k'.name → k = k' := by
    intro k k'
    cases k <;> cases k' <;> decide
  constructor
  · intro h
    exact beq_iff_eq.mp (List.find?_some h :)
  · intro h
    cases hfind : Key.ofWord? word with
    | none =>
        rw [Key.ofWord?, List.find?_eq_none] at hfind
        exact absurd (beq_iff_eq.mpr h) (hfind k k.mem_all)
    | some k' =>
        have hk' : k'.name = Key.normalize word := beq_iff_eq.mp (List.find?_some hfind :)
        rw [hinj (hk'.trans h.symm)]

/-- Saving stops only where the stack has no room for a value, or where the system refuses. -/
theorem failsOnly_save {given : Option Path} {s : Settings} {p : Path} {w : World}
    (hp : path? given w.env = some p) :
    Action.FailsOnly (fun f => (∃ e, f = .nesting e) ∨ ∃ e, f = .file e) (save s given) w := by
  rw [save, Action.failsOnly_bind_of_ok (fileOr_eq_ok_iff.mpr ⟨rfl, hp⟩),
    Action.failsOnly_bind_iff]
  refine ⟨fun f w₁ h => .inr (Action.failsOnly_changePartly _ w f w₁ h), fun _ w₁ _ => ?_⟩
  refine (Action.failsOnly_bind_of_ok (rfl : Action.world w₁ = .ok w₁ w₁)).mpr ?_
  split
  · next e _ => exact (Action.failsOnly_iff_of_error rfl).mpr (.inl ⟨e, rfl⟩)
  · refine Action.failsOnly_bind_iff.mpr ⟨fun f w₂ h => ?_, fun _ _ _ => Action.failsOnly_of_ok rfl⟩
    exact .inr (Action.failsOnly_change _ w₁ f w₂ h)

/-- A setting that a word changes is a text, a switch or a whole number from then on. -/
theorem flat_of_convert {current v : Json} {key value : String}
    (h : convert current key value = .ok v) : v.toStr.isText = true ∧ v.depth = 0 := by
  unfold convert at h
  cases current with
  | bool b =>
      dsimp only at h
      split at h <;> cases h
      exact ⟨rfl, rfl⟩
  | int m =>
      dsimp only at h
      split at h <;> cases h
      exact ⟨rfl, rfl⟩
  | null | float | str | arr | obj =>
      cases h
      exact ⟨rfl, rfl⟩

theorem depth_toJson_le_iff {s : Settings} {n : Nat} :
    s.toJson.depth ≤ n + 1 ↔ ∀ k, (s.get k).depth ≤ n := by
  rw [toJson_eq, Json.depth, Nat.succ_le_succ_iff, Json.depthOfMembers_le_iff]
  constructor
  · intro h k
    exact h _ (mem_members_iff.mpr ⟨k, rfl⟩)
  · intro h m hm
    obtain ⟨k, rfl⟩ := mem_members_iff.mp hm
    exact h k

/-- Settings that were loaded, and one of them changed by a word, can be read once more. -/
theorem depth_put_of_load {given : Option Path} {s : Settings} {w w' : World} {k : Key} {v : Json}
    (h : load given w = .ok s w') (hroom : 0 < w.host.room.reads .settings) (hv : v.depth = 0) :
    (s.put k v).toJson.depth ≤ w.host.room.reads .settings := by
  have hloaded : s.toJson.depth ≤ w.host.room.reads .settings := by
    obtain ⟨-, p, -, ⟨-, rfl⟩ | ⟨cs, x, ms, -, hparse, rfl⟩⟩ := load_eq_ok_iff.mp h
    · exact Nat.le_trans (by decide) hroom
    · exact depth_ofMembers_le (Json.fits_of_parse hparse).2
  obtain ⟨n, hn⟩ := Nat.exists_eq_add_of_lt hroom
  rw [hn, Nat.zero_add] at hloaded ⊢
  refine depth_toJson_le_iff.mpr fun k' => ?_
  rw [get_put]
  split
  · exact hv ▸ Nat.zero_le n
  · exact depth_toJson_le_iff.mp hloaded k'

theorem cwd_of_save {given : Option Path} {s : Settings} {p : Path} {w w' : World}
    (h : save s given w = .ok p w') : w'.disk.cwd = w.disk.cwd := by
  obtain ⟨-, -, d, d', hmake, hwrite, rfl⟩ := save_eq_ok_iff.mp h
  obtain ⟨-, -, -, rfl⟩ := Disk.writeFile_eq_ok_iff.mp hwrite
  exact (Disk.makePath_made hmake).cwd

theorem load_congr {given : Option Path} {s : Settings} {w w' : World} (henv : w'.env = w.env)
    (hhost : w'.host = w.host) (hdisk : w'.disk = w.disk) (h : load given w = .ok s w) :
    load given w' = .ok s w' := by
  obtain ⟨-, hfile⟩ := load_eq_ok_iff.mp h
  rw [← henv, ← hhost, ← hdisk] at hfile
  exact load_eq_ok_iff.mpr ⟨rfl, hfile⟩

end Settings

namespace CommandLine

open Settings (Key)
open Text (startsWith)

variable {args : List String} {action : ConfigAction} {key value : Option String} {here : Path}
  {s : Settings} {w w' : World}

/-- The world in which a request is carried out with settings `s`. -/
def prepared (s : Settings) (w : World) (verbose : Bool := s.verbose.truthy) : World :=
  { w with
    palette := w.palette.switch s.color.truthy
    palette_eq_of := ⟨s.color.truthy, w.palette.switch_eq_of s.color.truthy⟩
    log := .console verbose }

/-- A request about settings needs a working directory and settings that can be loaded. -/
theorem run_config (hargs : Request.parse args = .ok (.config action key value))
    (hhere : w.disk.workingDirectory = .ok here) (hload : Settings.load none w = .ok s w) :
    run args w =
      (Request.lacksKey (.config action key value)).elim
        (config action (key.getD "") (value.getD "") s)
        (fun missing => reject (.misuse none s!"config {missing.word} requires a key"))
        (prepared s w) := by
  have hsettings : loadSettings w = .ok s w :=
    Command.tryCatch_of_ok (Command.lift_of_ok hload)
  rw [run, Command.bind_of_ok (Command.lift_of_ok (Action.ask_of_ok hhere)), hargs]
  refine (Command.bind_of_ok hsettings).trans ?_
  refine (Command.bind_of_ok (Command.lift_of_ok rfl)).trans ?_
  refine (Command.bind_of_ok (Command.lift_of_ok rfl)).trans ?_
  dsimp only [Request.projectDir]
  cases Request.lacksKey (.config action key value) <;> rfl

theorem lacksKey_of_isEmpty {word : String} (hne : action ≠ .list) :
    Request.lacksKey (.config action (some word) value) =
      if word.isEmpty then some action else none := by
  cases action with
  | list => exact absurd rfl hne
  | get | set => rfl

theorem run_of_no_workingDirectory {e : FileError} (h : w.disk.workingDirectory = .error e) :
    run args w = .error (.fault (.file e)) w :=
  Command.bind_of_error (Command.lift_of_error (Action.ask_of_error h))

/-! ## Words -/

theorem ne_dashes {word : String} (h : startsWith word "-" = false) : word ≠ "--" := by
  rintro rfl
  cases h

/-- Words that do not start with a hyphen are plain. -/
theorem markAll_of_plain (g : Grammar) {words : List String}
    (h : ∀ word ∈ words, startsWith word "-" = false) :
    g.markAll words = .ok (words.map fun word => (word, .plain)) := by
  induction words with
  | nil => rfl
  | cons word words ih =>
      obtain ⟨hword, hwords⟩ := List.forall_mem_cons.mp h
      rw [Grammar.markAll, if_neg (ne_dashes hword), Grammar.mark, hword, ih hwords]
      rfl

/-- Plain words are read if the slots take all of them at one go. -/
theorem parse_of_plain {g : Grammar} {word : String} {words : List String} {m : Matches}
    (h : ∀ v ∈ word :: words, startsWith v "-" = false)
    (hfill : ({} : Matches).fillSlots g.slots
      ((word, .plain) :: words.map fun v => (v, .plain)) = .ok (m, words.length + 1, [])) :
    g.parse (word :: words) = .ok m := by
  rw [Grammar.parse, markAll_of_plain g h]
  dsimp only
  rw [List.map_cons, Grammar.takeAll.eq_def]
  dsimp only
  rw [hfill]
  dsimp only
  rw [List.drop_of_length_le (by simp), Grammar.takeAll]

theorem fill_nil (m : Matches) (name : String) (choices : List String) :
    m.fill name choices [] = .ok m := rfl

theorem fill_of_plain (m : Matches) (name : String) {word : String} {choices : List String}
    (h : startsWith word "-" = false) (hc : choices.isEmpty || choices.contains word) :
    m.fill name choices [word] = .ok { m with words := (name, word) :: m.words } := by
  have herase : [word].erase "--" = [word] :=
    List.erase_of_not_mem (by simpa using (ne_dashes h).symm)
  rw [Matches.fill, herase]
  dsimp only
  rw [if_pos hc]

/-- Whatever key and value are given, the words are read as such unless a hyphen comes first. -/
theorem parse_config (action : ConfigAction) {key : String} {value : Option String}
    (hk : startsWith key "-" = false) (hv : ∀ v ∈ value, startsWith v "-" = false) :
    Request.parse ("config" :: action.word :: key :: value.toList) =
      .ok (.config action (some key) value) := by
  have ha : startsWith action.word "-" = false := by cases action <;> rfl
  have hc : ["list", "get", "set"].isEmpty || ["list", "get", "set"].contains action.word := by
    cases action <;> rfl
  have hwords : ∀ v ∈ action.word :: key :: value.toList, startsWith v "-" = false := by
    simpa [ha, hk] using hv
  have hprogram : programGrammar.parse ("config" :: action.word :: key :: value.toList) =
      .ok { command := some ("config", action.word :: key :: value.toList) } := by
    refine parse_of_plain (List.forall_mem_cons.mpr ⟨rfl, hwords⟩) ?_
    cases value <;> rfl
  have hconfig : CommandName.config.grammar.parse (action.word :: key :: value.toList) =
      .ok { words := (value.toList.map fun v => ("value", v)) ++
        [("key", key), ("action", action.word)] } := by
    refine parse_of_plain hwords ?_
    cases value with
    | none =>
        simp [CommandName.grammar, Matches.fillSlots, optionalCount, fill_of_plain _ _ ha hc,
          fill_of_plain _ _ hk, fill_nil]
    | some v =>
        simp [CommandName.grammar, Matches.fillSlots, optionalCount, fill_of_plain _ _ ha hc,
          fill_of_plain _ _ hk, fill_of_plain _ _ (hv v rfl)]
  have hfind : CommandName.all.find? (·.word == "config") = some .config := by decide
  rw [Request.parse, hprogram]
  dsimp only
  rw [hfind]
  dsimp only
  rw [hconfig]
  cases action <;> cases value <;> rfl

/-! ## Getting -/

/-- A command line prints one line, and no more; if the line is torn, the console refuses it. -/
def Prints (args : List String) (w : World) (line : Text.Str) : Prop :=
  match line.printable with
  | .ok text => ∃ w', run args w = .ok () w' ∧ w'.trace = w.trace ++ [.printed (text ++ "\n")]
  | .error e => ∃ w', run args w = .error (.fault (.pieces e)) w' ∧ w'.trace = w.trace

theorem prints_get {word : String} {k : Key}
    (hargs : Request.parse args = .ok (.config .get (some word) value))
    (hk : Key.ofWord? word = some k) (hhere : w.disk.workingDirectory = .ok here)
    (hload : Settings.load none w = .ok s w) : Prints args w (s.get k).toStr := by
  have hword : ¬ word.isEmpty = true := by
    rw [String.isEmpty_iff]
    rintro rfl
    cases k <;> cases hk
  have hlookup : s.lookup word = .ok (s.get k) := by rw [Settings.lookup, hk]
  have hget : configure .get word (value.getD "") s (prepared s w) =
      Action.printStr (s.get k).toStr (prepared s w) := by
    rw [configure, hlookup]
    rfl
  rw [Prints, run_config hargs hhere hload, lacksKey_of_isEmpty (by decide), if_neg hword]
  cases hprint : (s.get k).toStr.printable with
  | ok text =>
      refine ⟨(prepared s w).emit (.printed (text ++ "\n")), ?_, rfl⟩
      rw [Action.printStr, hprint] at hget
      exact Command.tryCatch_of_ok (Command.lift_of_ok hget)
  | error e =>
      refine ⟨prepared s w, ?_, rfl⟩
      rw [Action.printStr, hprint] at hget
      exact Command.tryCatch_of_error (Command.lift_of_error hget)

/-! ## Setting -/

theorem configure_set_of_ok {word text : String} {changed : Settings} {p : Path}
    (hset : s.set word text = .ok changed) (hsave : changed.save none w = .ok p w') :
    ∃ w'', configure .set word text s w = .ok () w'' ∧ Quiet w' w'' := by
  obtain ⟨k, v, hk, hv, hchanged⟩ := Settings.set_eq_ok_iff.mp hset
  have hlookup : changed.lookup word = .ok (changed.get k) := by rw [Settings.lookup, hk]
  have htext : (changed.get k).toStr.isText = true := by
    rw [hchanged, Settings.get_put, if_pos rfl]
    exact (Settings.flat_of_convert hv).1
  have hmessage :
      (s!"{word} = " ++ (changed.get k).toStr ++ s!"  ({p})" : Text.Str).isText = true := by
    simp [htext]
  obtain ⟨w'', hshow, hquiet⟩ := Console.shows_success_of_isText hmessage w'
  refine ⟨w'', ?_, hquiet⟩
  rw [configure, hset]
  refine (Action.bind_of_ok rfl).trans ((Action.bind_of_ok hsave).trans ?_)
  rw [hlookup]
  exact (Action.bind_of_ok rfl).trans hshow

theorem configure_set_of_error {word text : String} {e : Settings.Error}
    (hset : s.set word text = .error e) :
    configure .set word text s w = .error (.settings e) w := by
  rw [configure, hset]
  rfl

theorem configure_set_of_save_error {word text : String} {s' : Settings} {f : Fault}
    (hset : s.set word text = .ok s') (hsave : s'.save none w = .error f w') :
    configure .set word text s w = .error f w' := by
  rw [configure, hset]
  exact (Action.bind_of_ok rfl).trans (Action.bind_of_error hsave)

theorem config_set_of_error {word text : String} {e : Settings.Error}
    (hset : s.set word text = .error e) :
    ∃ w', config .set word text s w = .error (.exit 1) w' ∧ Quiet w w' := by
  obtain ⟨w', hshow, hquiet⟩ := Console.shows_error "Config error" e.message none w
  refine ⟨w', ?_, hquiet⟩
  rw [config, Command.tryCatch_of_error (Command.lift_of_error (configure_set_of_error hset))]
  exact Command.bind_of_ok (Command.lift_of_ok hshow)

theorem config_set_of_save_error {word text : String} {s' : Settings} {f : Fault}
    (hset : s.set word text = .ok s') (hsave : s'.save none w = .error f w')
    (hf : ∀ e, f ≠ .settings e) : config .set word text s w = .error (.fault f) w' := by
  rw [config, Command.tryCatch_of_error (Command.lift_of_error
    (configure_set_of_save_error hset hsave))]
  cases f with
  | settings e => exact absurd rfl (hf e)
  | _ => rfl

/-- How a command line that changes a setting may end. -/
inductive SetOutcome (s : Settings) (word text : String) (w : World) :
    EStateM.Result Stop World Unit → Prop
  | homeless {e : FileError} (h : w.disk.workingDirectory = .error e) :
    SetOutcome s word text w (.error (.fault (.file e)) w)
  | keyless {w' : World} (h : word = "") : SetOutcome s word text w (.error (.exit 2) w')
  | refused {e : Settings.Error} {w' : World} {here : Path}
    (hhere : w.disk.workingDirectory = .ok here) (hne : word ≠ "")
    (hset : s.set word text = .error e) (hquiet : Quiet (prepared s w) w') :
    SetOutcome s word text w (.error (.exit 1) w')
  | unsaved {s' : Settings} {f : Fault} {w' : World} (hset : s.set word text = .ok s')
    (hsave : s'.save none (prepared s w) = .error f w') :
    SetOutcome s word text w (.error (.fault f) w')
  | saved {s' : Settings} {p : Path} {w₁ w' : World} {here : Path}
    (hhere : w.disk.workingDirectory = .ok here) (hne : word ≠ "")
    (hset : s.set word text = .ok s') (hsave : s'.save none (prepared s w) = .ok p w₁)
    (hquiet : Quiet w₁ w') : SetOutcome s word text w (.ok () w')

theorem setOutcome_run {word : String}
    (hargs : Request.parse args = .ok (.config .set (some word) value))
    (hload : Settings.load none w = .ok s w) :
    SetOutcome s word (value.getD "") w (run args w) := by
  cases hhere : w.disk.workingDirectory with
  | error e =>
      rw [run_of_no_workingDirectory hhere]
      exact .homeless hhere
  | ok here =>
      rw [run_config hargs hhere hload, lacksKey_of_isEmpty (by decide)]
      by_cases hne : word = ""
      · rw [if_pos (String.isEmpty_iff.mpr hne)]
        exact .keyless hne
      · rw [if_neg (mt String.isEmpty_iff.mp hne)]
        show SetOutcome s word (value.getD "") w (config .set word (value.getD "") s (prepared s w))
        cases hset : s.set word (value.getD "") with
        | error e =>
            obtain ⟨w', hrun, hquiet⟩ := config_set_of_error (w := prepared s w) hset
            rw [hrun]
            exact .refused hhere hne hset hquiet
        | ok s' =>
            obtain ⟨-, p, hp, -⟩ := Settings.load_eq_ok_iff.mp hload
            cases hsave : s'.save none (prepared s w) with
            | error f w' =>
                have hf := Settings.failsOnly_save (w := prepared s w) hp f w' hsave
                rw [config_set_of_save_error hset hsave]
                · exact .unsaved hset hsave
                · rintro e rfl
                  obtain ⟨e', h⟩ | ⟨e', h⟩ := hf <;> cases h
            | ok q w₁ =>
                obtain ⟨w', hrun, hquiet⟩ := configure_set_of_ok hset hsave
                rw [config, Command.tryCatch_of_ok (Command.lift_of_ok hrun)]
                exact .saved hhere hne hset hsave hquiet

section Set

variable {word : String} {p : Path} {d : Disk}

theorem run_set_ok_iff (hargs : Request.parse args = .ok (.config .set (some word) value))
    (hload : Settings.load none w = .ok s w) (hpath : Settings.path? none w.env = some p)
    (hmake : w.disk.makePath p.parent = (none, d)) :
    (∃ w', run args w = .ok () w') ↔
      (∃ here, w.disk.workingDirectory = .ok here) ∧ word ≠ "" ∧
        ∃ s', s.set word (value.getD "") = .ok s' ∧ w.host.room.copying? s'.toJson = none ∧
          ∃ q, d.locate p = .ok q ∧ q.occupant? d.tree ≠ some .directory := by
  have hsaves : ∀ s' : Settings, (∃ w', s'.save none (prepared s w) = .ok p w') ↔
      w.host.room.copying? s'.toJson = none ∧
        ∃ q, d.locate p = .ok q ∧ q.occupant? d.tree ≠ some .directory :=
    fun s' => Settings.exists_save_iff (w := prepared s w) hpath hmake
  simp only [← hsaves]
  have houtcome := setOutcome_run hargs hload
  generalize run args w = r at houtcome
  constructor
  · rintro ⟨w', rfl⟩
    cases houtcome with
    | saved hhere hne hset hsave hquiet =>
        obtain ⟨hp, -⟩ := Settings.save_eq_ok_iff.mp hsave
        cases hpath.symm.trans hp
        exact ⟨⟨_, hhere⟩, hne, _, hset, _, hsave⟩
  · rintro ⟨⟨here, hhere⟩, hne, s', hset, w₁, hsave⟩
    cases houtcome with
    | homeless h => cases h.symm.trans hhere
    | keyless h => exact absurd h hne
    | refused _ _ h _ => cases h.symm.trans hset
    | unsaved h h' =>
        cases h.symm.trans hset
        cases h'.symm.trans hsave
    | saved => exact ⟨_, rfl⟩

/-- What a setting is changed to is what is loaded, and printed, from then on. -/
theorem load_of_run_set (hargs : Request.parse args = .ok (.config .set (some word) value))
    (hload : Settings.load none w = .ok s w) (hfloat : ∀ k, Json.FloatFree (s.get k))
    (hroom : 0 < w.host.room.reads .settings) (hrun : run args w = .ok () w') :
    ∃ k v, k.name = Key.normalize word ∧
      Settings.convert (s.get k) word (value.getD "") = .ok v ∧
      Settings.load none w' = .ok (s.put k v) w' ∧
      (∃ here, w.disk.workingDirectory = .ok here) ∧
      w'.disk.workingDirectory = w.disk.workingDirectory := by
  have houtcome := setOutcome_run hargs hload
  rw [hrun] at houtcome
  cases houtcome with
  | saved hhere hne hset hsave hquiet =>
      obtain ⟨k, v, hk, hv, rfl⟩ := Settings.set_eq_ok_iff.mp hset
      have hvalues : ∀ k', Json.Canonical ((s.put k v).get k') ∧
          Json.FloatFree ((s.put k v).get k') := by
        intro k'
        rw [Settings.get_put]
        split
        · exact Settings.canonical_of_convert hv
        · exact ⟨Settings.canonical_of_load hload k', hfloat k'⟩
      have hdepth : (s.put k v).toJson.depth ≤ w.host.room.reads .settings :=
        Settings.depth_put_of_load hload hroom (Settings.flat_of_convert hv).2
      have hload' := (Settings.load_of_save_iff hsave (fun k' => (hvalues k').1)
        fun k' => (hvalues k').2).mpr hdepth
      refine ⟨k, v, Key.ofWord?_eq_some_iff.mp hk, hv,
        Settings.load_congr hquiet.trail.env hquiet.trail.host hquiet.disk hload', ⟨_, hhere⟩, ?_⟩
      rw [Disk.workingDirectory, Disk.workingDirectory, hquiet.disk, Settings.cwd_of_save hsave]
      rfl

theorem run_set_exit_iff (hargs : Request.parse args = .ok (.config .set (some word) value))
    (hload : Settings.load none w = .ok s w) :
    ((∃ w', run args w = .error (.exit 1) w') ↔
      (∃ here, w.disk.workingDirectory = .ok here) ∧ word ≠ "" ∧
        ∃ e, s.set word (value.getD "") = .error e) ∧
    ∀ w', run args w = .error (.exit 1) w' → w'.disk = w.disk := by
  have houtcome := setOutcome_run hargs hload
  generalize run args w = r at houtcome
  refine ⟨⟨?_, ?_⟩, ?_⟩
  · rintro ⟨w', rfl⟩
    cases houtcome with
    | refused hhere hne hset hquiet => exact ⟨⟨_, hhere⟩, hne, _, hset⟩
  · rintro ⟨⟨here, hhere⟩, hne, e, hset⟩
    cases houtcome with
    | homeless h => cases h.symm.trans hhere
    | keyless h => exact absurd h hne
    | refused => exact ⟨_, rfl⟩
    | unsaved h _ => cases h.symm.trans hset
    | saved _ _ h _ _ => cases h.symm.trans hset
  · rintro w' rfl
    cases houtcome with
    | refused _ _ _ hquiet => exact hquiet.disk

/-- **Changing a setting is all or nothing, and touches no other setting.** Where the settings can
be loaded, hold no fractions and are kept in a directory that can be made, and the stack has room to
read an object, it succeeds exactly if there is a key, it is known, the value converts, the stack
has room to copy the settings, and the file can be written; from then on the settings are those from
before but for the one that the key names. It ends with exit code 1 exactly if the key is not known
or the value does not convert; then the disk stays as it is. -/
theorem config_set_changes_one (hargs : Request.parse args = .ok (.config .set (some word) value))
    (hload : Settings.load none w = .ok s w) (hfloat : ∀ k, Json.FloatFree (s.get k))
    (hroom : 0 < w.host.room.reads .settings) (hpath : Settings.path? none w.env = some p)
    (hmake : w.disk.makePath p.parent = (none, d)) :
    ((∃ w', run args w = .ok () w') ↔
      (∃ here, w.disk.workingDirectory = .ok here) ∧ word ≠ "" ∧
        ∃ s', s.set word (value.getD "") = .ok s' ∧ w.host.room.copying? s'.toJson = none ∧
          ∃ q, d.locate p = .ok q ∧ q.occupant? d.tree ≠ some .directory) ∧
    (∀ w', run args w = .ok () w' → ∃ k v, k.name = Key.normalize word ∧
      Settings.convert (s.get k) word (value.getD "") = .ok v ∧
      Settings.load none w' = .ok (s.put k v) w' ∧
      ∀ getArgs getWord extra k',
        Request.parse getArgs = .ok (.config .get (some getWord) extra) →
        k'.name = Key.normalize getWord →
        Prints getArgs w (s.get k').toStr ∧
          Prints getArgs w' (if k' = k then v else s.get k').toStr) ∧
    ((∃ w', run args w = .error (.exit 1) w') ↔
      (∃ here, w.disk.workingDirectory = .ok here) ∧ word ≠ "" ∧
        ∃ e, s.set word (value.getD "") = .error e) ∧
    ∀ w', run args w = .error (.exit 1) w' → w'.disk = w.disk := by
  refine ⟨run_set_ok_iff hargs hload hpath hmake, fun w' hrun => ?_, run_set_exit_iff hargs hload⟩
  obtain ⟨k, v, hk, hv, hload', ⟨here, hhere⟩, hsame⟩ :=
    load_of_run_set hargs hload hfloat hroom hrun
  refine ⟨k, v, hk, hv, hload', fun getArgs getWord extra k' hget hk' => ?_⟩
  have hword := Key.ofWord?_eq_some_iff.mpr hk'
  rw [← Settings.get_put]
  exact ⟨prints_get hget hword hhere hload, prints_get hget hword (hsame.trans hhere) hload'⟩

/-- The first setting is saved with its directory, and printed from then on. -/
theorem config_set_changes_one_sample :
    let w := Settings.Sample.world (.ofDepths 1 1) []
    ∃ w', run ["config", "set", "Default-Baud", "115200"] w = .ok () w' ∧
      Settings.load none w' = .ok { defaultBaud := .int 115200 } w' ∧
      Prints ["config", "get", "default_baud"] w (.text "9600") ∧
      Prints ["config", "get", "default_baud"] w' (.text "115200") := by
  intro w
  have hpath : Settings.path? none w.env = some Settings.Sample.file :=
    Settings.Sample.path?_world _ _
  have hload : Settings.load none w = .ok {} w :=
    Settings.load_eq_ok_iff.mpr ⟨rfl, _, hpath, .inl ⟨by decide +kernel, rfl⟩⟩
  have hargs : Request.parse ["config", "set", "Default-Baud", "115200"] =
      .ok (.config .set (some "Default-Baud") (some "115200")) :=
    @parse_config .set "Default-Baud" (some "115200") rfl (by rintro v ⟨⟩; rfl)
  have hargs' : Request.parse ["config", "get", "default_baud"] =
      .ok (.config .get (some "default_baud") none) :=
    @parse_config .get "default_baud" none rfl (by rintro v ⟨⟩)
  have hkey : Key.ofWord? "Default-Baud" = some .defaultBaud := by decide +kernel
  have hconvert : Settings.convert (.int 9600) "Default-Baud" "115200" = .ok (.int 115200) := by rfl
  have hset : ({} : Settings).set "Default-Baud" "115200" = .ok { defaultBaud := .int 115200 } :=
    Settings.set_eq_ok_iff.mpr ⟨_, _, hkey, hconvert, rfl⟩
  obtain ⟨hiff, hok, -⟩ := config_set_changes_one hargs hload (fun k => by cases k <;> rfl)
    (by decide) hpath (Prod.ext (Settings.Sample.makePath_world _) rfl)
  obtain ⟨w', hw'⟩ := hiff.mpr ⟨⟨_, rfl⟩, by decide, _, hset, by decide +kernel,
    ⟨["c", "godotino", "config.json"], 0⟩, rfl, by decide +kernel⟩
  obtain ⟨k, v, hk, hv, hload', hget⟩ := hok w' hw'
  cases hkey.symm.trans (Key.ofWord?_eq_some_iff.mpr hk)
  cases hconvert.symm.trans hv
  obtain ⟨hbefore, hafter⟩ := hget _ _ _ .defaultBaud hargs' (by decide +kernel)
  exact ⟨w', hw', hload', hbefore, hafter⟩

end Set

end CommandLine

end SketchBuild
