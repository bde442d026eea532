import SketchBuild.Check
import SketchBuild.Proofs.Tool.Run
import SketchBuild.Upload.Run

/-!
# Relations that builds respect

Builds, checks and uploads are put together from a few kinds of steps. A relation between actions
that holds between such steps and is kept when they are put together is a `Congruence`; it holds
between two builds that differ only in how much they tell. A property of single actions is the case
of a relation that does not look at its second action.
-/

namespace SketchBuild

open Text (Str)

/-! ## Words that ask a program to tell more -/

namespace Tool

/-- The word that asks the board tool to tell more. -/
def verboseFlag : String := "--verbose"

/-- The second list of words is the first, or has one word more: it asks the board tool, which is to
compile or to upload, to tell more. The words are strings, which `word` makes of texts. -/
inductive Louder {α : Type} (word : String → α) : List α → List α → Prop
  | same (ws : List α) : Louder word ws ws
  | flag {verb : String} (h : verb = "compile" ∨ verb = "upload") (program : α)
      (before after : List α) :
    Louder word (program :: word verb :: (before ++ after))
      (program :: word verb :: (before ++ word verboseFlag :: after))

theorem Louder.headD_eq {argv argv' : List String} (h : Louder id argv argv') :
    argv'.headD "" = argv.headD "" := by
  cases h <;> rfl

theorem Louder.ne_nil {α : Type} {word : String → α} {ws ws' : List α} (h : Louder word ws ws')
    (hne : ws ≠ []) : ws' ≠ [] := by
  cases h with
  | same => exact hne
  | flag => simp

theorem words_append (ss ss' : List Str) :
    Str.words (ss ++ ss') = do return (← Str.words ss) ++ (← Str.words ss') := by
  induction ss with
  | nil =>
      rw [List.nil_append, Str.words]
      cases Str.words ss' <;> rfl
  | cons s ss ih =>
      rw [List.cons_append, Str.words, Str.words, ih]
      cases s.nameable with
      | error e => rfl
      | ok w =>
          cases Str.words ss with
          | error e => rfl
          | ok ws => cases Str.words ss' <;> rfl

/-- One word more leaves a torn command torn, by the same word. -/
theorem Louder.words_eq_error {command command' : List Str} (h : Louder .text command command')
    {e : Text.Unencodable} (he : Str.words command = .error e) : Str.words command' = .error e := by
  cases h with
  | same => exact he
  | flag h program before after =>
      simp only [Str.words, words_append] at he ⊢
      cases hp : program.nameable with
      | error e' =>
          rw [hp] at he
          exact he
      | ok p =>
          rw [hp] at he
          cases hb : Str.words before with
          | error e' =>
              rw [hb] at he
              exact he
          | ok ws =>
              rw [hb] at he
              cases ha : Str.words after with
              | error e' =>
                  rw [ha] at he
                  exact he
              | ok ws' =>
                  rw [ha] at he
                  cases he

theorem Louder.words_eq_ok {command command' : List Str} (h : Louder .text command command')
    {argv : List String} (hargv : Str.words command = .ok argv) :
    ∃ argv', Str.words command' = .ok argv' ∧ Louder id argv argv' := by
  cases h with
  | same => exact ⟨argv, hargv, .same argv⟩
  | @flag verb h program before after =>
      simp only [Str.words, words_append] at hargv ⊢
      cases hp : program.nameable with
      | error e =>
          rw [hp] at hargv
          cases hargv
      | ok p =>
          rw [hp] at hargv
          cases hb : Str.words before with
          | error e =>
              rw [hb] at hargv
              cases hargv
          | ok ws =>
              rw [hb] at hargv
              cases ha : Str.words after with
              | error e =>
                  rw [ha] at hargv
                  cases hargv
              | ok ws' =>
                  rw [ha] at hargv
                  cases hargv
                  exact ⟨_, rfl, .flag h p ws ws'⟩

/-- A command of words and other values is not spelled, or its text is. -/
theorem spell_cases (command : List Json) :
    (∃ e, spell command = throw (.kind e)) ∨ ∃ line, spell command = pure line ∧
      ((∀ v ∈ command, v.isWord = true) → line.isText = true) := by
  cases hb : badWord? 0 command with
  | some e => exact .inl ⟨_, by rw [spell, hb]⟩
  | none => exact .inr ⟨_, by rw [spell, hb], Json.isText_spelling⟩

end Tool

theorem Compiler.louder_command (binary : Json) {v v' : Bool} (hv : v = true → v' = true)
    (sketch : Sketch.Checked) (fqbn : String) (buildPath : Path) :
    Tool.Louder .text ((command ⟨binary, v⟩ sketch fqbn buildPath).map Json.toStr)
      ((command ⟨binary, v'⟩ sketch fqbn buildPath).map Json.toStr) := by
  cases v with
  | true =>
      rw [hv rfl]
      exact .same _
  | false =>
      cases v' with
      | false => exact .same _
      | true =>
          exact .flag (.inl rfl) binary.toStr
            (["--fqbn", fqbn, "--build-path", buildPath.toString, "--warnings", "all"].map .text)
            [.text sketch.dir.toString]

theorem Upload.Uploader.louder_command (settings : Settings) {v v' : Bool}
    (hv : v = true → v' = true) (fqbn port : String) (dir : Directory) :
    Tool.Louder .text ((command ⟨settings, v⟩ fqbn port dir).map Json.toStr)
      ((command ⟨settings, v'⟩ fqbn port dir).map Json.toStr) := by
  cases v with
  | true =>
      rw [hv rfl]
      exact .same _
  | false =>
      cases v' with
      | false => exact .same _
      | true =>
          exact .flag (.inr rfl) (binary ⟨settings, false⟩).toStr
            [.text "--fqbn", .text fqbn, .text "--port", .text port, .text "--input-dir",
              dir.spelling] []

/-- The words of an upload are texts if the names of the board tool and of the directory are. -/
theorem Upload.Uploader.isText_of_mem_command {u : Uploader} (h : u.binary.isText = true)
    {fqbn port : String} {dir : Directory} (hdir : dir.spelling.isText = true) :
    ∀ v ∈ u.command fqbn port dir, v.isText = true := by
  have hstr : (Json.str dir.spelling).isText = true := hdir
  cases hv : u.verbose <;> simp [command, h, hv, hstr]

theorem Directory.isText_spelling_child (dir : Directory) (name : String) :
    (dir.child name).spelling.isText = dir.spelling.isText := by
  cases dir <;> rfl

theorem Build.joinSetting_cases (dir : Path) (setting : Json) :
    (∃ e, joinSetting dir setting = throw (.kind e)) ∨
      ∃ d, joinSetting dir setting = pure d ∧ d.spelling.isText = setting.isWord := by
  cases setting with
  | str s => exact .inr ⟨.ofStr dir s, rfl, by cases s <;> rfl⟩
  | _ => exact .inl ⟨_, rfl⟩

/-- All that a build has to tell of is a text: the translator, the board and the directory. -/
structure Build.Request.IsTold (r : Request) (settings : Settings) : Prop where
  translator : (settings.coreBinary.orElse Translator.defaultBinary).isWord = true
  board : (boardOf r.board r.manifest settings).isWord = true
  root : r.outputDir.isSome = true ∨ r.manifest.build.outputDir.isWord = true

/-- All that an upload has to tell of is a text: the board tool and the directory. -/
structure Upload.Options.IsTold (o : Options) (settings : Settings) : Prop where
  tool : (settings.arduinoCli.orElse Compiler.defaultBinary).isText = true
  dir : o.buildDir.isSome = true ∨ o.manifest.build.outputDir.isWord = true

/-! ## Congruences -/

namespace Action

open Tool (Louder)

/-- A relation between actions that is kept when actions are put together. It may ask that each line
that is printed satisfies `Line`, and that each fault that stops an action satisfies `Thrown`, which
holds of all faults whose wording is a text. -/
structure Congruence (Line : String → Prop) (Thrown : Fault → Prop)
    (R : ∀ {α : Type}, Action α → Action α → Prop) : Prop where
  told {f : Fault} (h : f.message.isText = true) : Thrown f
  pure {α : Type} (a : α) : R (pure a) (pure a)
  throw {α : Type} {f : Fault} (h : Thrown f) : R (throw f : Action α) (throw f)
  bind {α β : Type} {x y : Action α} {f g : α → Action β} (h : R x y)
    (hfg : ∀ a, R (f a) (g a)) : R (x >>= f) (y >>= g)
  /-- A handler may exchange faults, but lets an interrupt through. -/
  tryCatch {α : Type} {x y : Action α} {g : Fault → Action α} (h : R x y)
    (hg : ∀ f, Thrown f → ∃ f', g f = MonadExcept.throw f' ∧ Thrown f')
    (hi : g .interrupted = MonadExcept.throw .interrupted) : R (tryCatch x g) (tryCatch y g)
  ask {α : Type} (question : Disk → Except FileError α) : R (ask question) (ask question)
  change (operation : Disk → Except FileError Disk) : R (change operation) (change operation)
  changePartly (operation : Disk → Option FileError × Disk) :
    R (changePartly operation) (changePartly operation)
  findSetting (setting : Json) : R (Tool.findSetting setting) (Tool.findSetting setting)
  log (level : Level) (message : Str) : R (log level message) (log level message)
  /-- One of the two actions may print where the other does not. -/
  mention {c c' : Prop} [Decidable c] [Decidable c'] {line line' : String} (h : c → Line line)
    (h' : c' → Line line') :
    R (if c then print line else Pure.pure ()) (if c' then print line' else Pure.pure ())
  run {command command' : List Str} (hne : command ≠ []) (h : Louder .text command command')
    (cwd : Option Path) (merge : Bool) :
    R (Tool.run command cwd merge) (Tool.run command' cwd merge)

namespace Congruence

variable {Line : String → Prop} {Thrown : Fault → Prop}
  {R : ∀ {α : Type}, Action α → Action α → Prop} (hR : Congruence Line Thrown R) {α β : Type}

include hR

/-! ### Ways of putting actions together -/

theorem stop {f : Fault} (h : f.message.isText = true) :
    R (MonadExcept.throw f : Action α) (MonadExcept.throw f) :=
  hR.throw (hR.told h)

theorem print {line line' : String} (h : Line line) (h' : Line line') :
    R (Action.print line) (Action.print line') :=
  hR.mention (fun _ : True => h) fun _ : True => h'

/-- What is done first if a switch is on. -/
theorem ite_bind {c c' : Prop} [Decidable c] [Decidable c'] {x y : Action Unit}
    {f g : Unit → Action β} (h : R (if c then x else Pure.pure ()) (if c' then y else Pure.pure ()))
    (hfg : R (f ()) (g ())) : R (if c then x >>= f else f ()) (if c' then y >>= g else g ()) := by
  have hsplit : ∀ (d : Prop) [Decidable d] (z : Action Unit) (k : Unit → Action β),
      (if d then z >>= k else k ()) = (if d then z else Pure.pure ()) >>= k := by
    intro d _ z k
    split <;> rfl
  rw [hsplit, hsplit]
  exact hR.bind h fun _ => hfg

theorem mention_bind {c c' : Prop} [Decidable c] [Decidable c'] {line line' : String}
    {f g : Unit → Action β} (h : c → Line line) (h' : c' → Line line') (hfg : R (f ()) (g ())) :
    R (if c then Action.print line >>= f else f ())
      (if c' then Action.print line' >>= g else g ()) :=
  hR.ite_bind (hR.mention h h') hfg

/-- The console refuses a torn line; so one of the two actions may print where the other does not
only if the line is a text. -/
theorem tell {v v' : Bool} {line : Str} (h : v = v' ∨ line.isText = true)
    (hline : ∀ text, line = .text text → Line text) :
    R (if v then Action.printStr line else Pure.pure ())
      (if v' then Action.printStr line else Pure.pure ()) := by
  cases line with
  | text s => exact hR.mention (fun _ => hline s rfl) fun _ => hline s rfl
  | torn ps hps =>
      obtain rfl : v = v' := by simpa using h
      obtain ⟨e, hprint⟩ := printStr_of_torn (Str.isText_torn ps hps)
      rw [hprint]
      split
      · exact hR.stop rfl
      · exact hR.pure ()

theorem printStr {line : Str} (hline : ∀ text, line = .text text → Line text) :
    R (Action.printStr line) (Action.printStr line) := by
  have htell : R (if true then Action.printStr line else Pure.pure ())
      (if true then Action.printStr line else Pure.pure ()) := hR.tell (.inl rfl) hline
  exact htell

theorem log_bind {c : Prop} [Decidable c] {level : Level} {message : Str}
    {f g : Unit → Action β} (hfg : R (f ()) (g ())) :
    R (if c then Action.log level message >>= f else f ())
      (if c then Action.log level message >>= g else g ()) := by
  split
  · exact hR.bind (hR.log _ _) fun _ => hfg
  · exact hfg

theorem ofExcept {ε : Type} {toFault : ε → Fault} {r : Except ε α}
    (h : ∀ e, r = .error e → (toFault e).message.isText = true) :
    R (Action.ofExcept toFault r) (Action.ofExcept toFault r) := by
  cases r with
  | ok a => exact hR.pure a
  | error e => exact hR.stop (h e rfl)

theorem forM {ι : Type} {f g : ι → Action Unit} (h : ∀ i, R (f i) (g i)) (is : List ι) :
    R (is.forM f) (is.forM g) := by
  induction is with
  | nil => exact hR.pure ()
  | cons i is ih => exact hR.bind (h i) fun _ => ih

/-- A first part that does nothing but give a value or stop. -/
theorem bind_same {x : Action α} {f g : α → Action β}
    (hx : (∃ e, x = MonadExcept.throw (.kind e)) ∨ ∃ a, x = Pure.pure a ∧ R (f a) (g a)) :
    R (x >>= f) (x >>= g) := by
  obtain ⟨e, rfl⟩ | ⟨a, rfl, h⟩ := hx
  · exact hR.stop rfl
  · exact h

/-- A command is spelled, or is not, before what follows. -/
theorem spell_bind {command : List Json} {f g : Str → Action β}
    (hfg : ∀ line, ((∀ v ∈ command, v.isWord = true) → line.isText = true) →
      R (f line) (g line)) :
    R (Tool.spell command >>= f) (Tool.spell command >>= g) := by
  refine hR.bind_same ?_
  obtain h | ⟨line, hline, htext⟩ := Tool.spell_cases command
  · exact .inl h
  · exact .inr ⟨line, hline, hfg line htext⟩

/-! ### Sketches -/

theorem sketchCheck (dir : Path) (expected : Option (List Path)) :
    R (Sketch.check dir expected) (Sketch.check dir expected) := by
  refine hR.bind (hR.ask _) fun there => ?_
  dsimp only
  split
  · exact hR.stop rfl
  · refine hR.bind ?_ fun entry => hR.bind ?_ fun _ => hR.pure _
    · refine hR.bind (hR.ask _) fun entries => ?_
      split
      · exact hR.stop rfl
      · split
        · exact hR.pure _
        · exact hR.stop rfl
      · exact hR.stop rfl
    · cases expected with
      | none => exact hR.pure ()
      | some outputs =>
          refine hR.bind (hR.ask _) fun present => ?_
          dsimp only
          split
          · exact hR.stop rfl
          · exact hR.pure ()

theorem clearStale (dir : Path) (keep : List Path) :
    R (Build.clearStale dir keep) (Build.clearStale dir keep) := by
  refine hR.bind (hR.bind (hR.ask _) fun outputs => ?_) fun stale => ?_
  · exact hR.bind (hR.forM (fun _ => hR.change _) _) fun _ => hR.pure _
  · exact hR.forM (fun _ => hR.log _ _) _

/-! ### The translator and the compiler -/

section Tools

variable {v v' : Bool} (binary : Json)

/-- A program that is not found is reported as a missing tool. It is started only if no word of the
command is torn. -/
theorem tool {command command' : List Str} (hne : command ≠ [])
    (h : Louder .text command command') (cwd : Option Path) (merge : Bool) {e : Build.ToolFault}
    (he : (∀ s ∈ command, s.isText = true) → e.message.isText = true) :
    R (MonadExcept.tryCatch (Tool.run command cwd merge) fun
        | .file ⟨.notFound, _⟩ => MonadExcept.throw (.build (.tool e))
        | f => MonadExcept.throw f)
      (MonadExcept.tryCatch (Tool.run command' cwd merge) fun
        | .file ⟨.notFound, _⟩ => MonadExcept.throw (.build (.tool e))
        | f => MonadExcept.throw f) := by
  by_cases htexts : ∀ s ∈ command, s.isText = true
  · refine hR.tryCatch (hR.run hne h cwd merge) (fun f hf => ?_) rfl
    split
    · exact ⟨_, rfl, hR.told (he htexts)⟩
    · exact ⟨f, rfl, hf⟩
  · -- nothing is started, so nothing is not found
    obtain ⟨s, hs, htorn⟩ : ∃ s ∈ command, s.isText = false := by simpa using htexts
    obtain ⟨e', hwords⟩ := Str.exists_words_error hs htorn
    have hrun : ∀ {ss : List Str}, Str.words ss = .error e' →
        (MonadExcept.tryCatch (Tool.run ss cwd merge) fun
          | .file ⟨.notFound, _⟩ => MonadExcept.throw (.build (.tool e))
          | f => MonadExcept.throw f) = Tool.run ss cwd merge := by
      intro ss hss
      unfold Tool.run
      rw [hss]
      rfl
    rw [hrun hwords, hrun (h.words_eq_error hwords)]
    exact hR.run hne h cwd merge

section Translator

variable (hecho : ∀ s, Line ("  core  " ++ s))

include hecho

/-- A verbose run shows its command, and a command is shown only if none of its words is torn. -/
theorem translatorRun {command : List Json} (hmem : binary ∈ command)
    (hwords : v = v' ∨ ∀ w ∈ command, w.isWord = true) :
    R (Translator.run ⟨binary, v⟩ command) (Translator.run ⟨binary, v'⟩ command) := by
  refine hR.spell_bind fun spelled hspelled => hR.ite_bind ?_ ?_
  · refine hR.tell (hwords.imp_right fun hw => by simp [hspelled hw]) fun text htext => ?_
    obtain ⟨s, -, rfl⟩ := Str.eq_text_of_append_eq htext
    exact hecho s
  · refine hR.bind (hR.log _ _) fun _ => ?_
    refine hR.tool (by simpa using List.ne_nil_of_mem hmem) (.same _) none false fun htexts => ?_
    have hbinary : binary.toStr.isText = true := htexts _ (List.mem_map_of_mem hmem)
    simp [Build.ToolFault.message, hbinary]

theorem translate (source output : Path) {board : Json} (sourceMap : Bool)
    (hwords : v = v' ∨ binary.isWord = true ∧ board.isWord = true) :
    R (Translator.translate ⟨binary, v⟩ source output board sourceMap)
      (Translator.translate ⟨binary, v'⟩ source output board sourceMap) := by
  have hcommand : v = v' ∨ ∀ w ∈ Translator.command ⟨binary, v⟩ source output board sourceMap,
      w.isWord = true := by
    refine hwords.imp_right fun ⟨hbinary, hboard⟩ => ?_
    cases sourceMap <;> simp [Translator.command, hbinary, hboard]
  refine hR.bind (hR.translatorRun binary hecho (by simp [Translator.command]) hcommand)
    fun o => ?_
  split
  · exact hR.bind (hR.ofExcept fun _ _ => rfl) fun _ => hR.stop rfl
  · exact hR.pure _

end Translator

/-- One translator checks a source and tells its version as it does itself. -/
theorem translatorCheck (hecho : ∀ s, Line ("  core  " ++ s)) (t : Translator) (source : Path)
    (board : Json) : R (t.check source board) (t.check source board) :=
  hR.bind (hR.translatorRun _ hecho (by simp [Translator.checkCommand]) (.inl rfl))
    fun _ => hR.pure _

theorem translatorVersion (hecho : ∀ s, Line ("  core  " ++ s)) (hthrown : ∀ f, Thrown f)
    (t : Translator) : R t.version t.version := by
  refine hR.bind (hR.translatorRun _ hecho (by simp) (.inl rfl)) fun o => ?_
  split
  · exact hR.throw (hthrown _)
  · exact hR.pure _

theorem findFirmware (dir : Path) : R (Compiler.findFirmware dir) (Compiler.findFirmware dir) := by
  unfold Compiler.findFirmware
  induction Compiler.firmwareSuffixes with
  | nil => exact hR.pure none
  | cons suffix rest ih =>
      refine hR.bind (hR.ask _) fun found => ?_
      split
      · exact hR.pure _
      · exact ih

theorem compile (hv : v = true → v' = true) (hecho : ∀ s, v' = true → Line s)
    (sketch : Sketch.Checked) (fqbn : String) (buildPath : Path) :
    R (Compiler.compile ⟨binary, v⟩ sketch fqbn buildPath)
      (Compiler.compile ⟨binary, v'⟩ sketch fqbn buildPath) := by
  refine hR.bind (hR.changePartly _) fun _ => ?_
  refine hR.bind (hR.ask _) fun outputs => ?_
  refine hR.bind (hR.log _ _) fun _ => ?_
  refine hR.bind (hR.tool (by simp [Compiler.command]) (Compiler.louder_command binary hv _ _ _) _ _
    fun htexts => ?_) fun o => ?_
  · have hbinary : binary.toStr.isText = true := htexts _ (by simp [Compiler.command])
    simp [Build.ToolFault.message, hbinary]
  have hrest : R
      (if (v && !o.stdout.isEmpty) = true
        then Action.print o.stdout >>= fun _ => Compiler.findFirmware buildPath
        else Compiler.findFirmware buildPath)
      (if (v' && !o.stdout.isEmpty) = true
        then Action.print o.stdout >>= fun _ => Compiler.findFirmware buildPath
        else Compiler.findFirmware buildPath) :=
    hR.mention_bind (fun h => hecho _ (hv (Bool.and_eq_true_iff.mp h).1))
      (fun h => hecho _ (Bool.and_eq_true_iff.mp h).1) (hR.findFirmware buildPath)
  dsimp only
  split
  · refine hR.bind (hR.ofExcept fun _ _ => rfl) fun _ => ?_
    exact hR.bind (hR.stop rfl) fun _ => hrest
  · exact hrest

end Tools

/-! ### Builds -/

section Builds

open Build

variable (settings : Settings) {v v' : Bool}

theorem makeSketchDir (dir : Path) : R (makeSketchDir dir) (makeSketchDir dir) := by
  refine hR.tryCatch (hR.changePartly _) (fun f hf => ?_) rfl
  split
  · split
    · exact ⟨_, rfl, hR.told rfl⟩
    · exact ⟨_, rfl, hf⟩
  · exact ⟨_, rfl, hf⟩

theorem discoverSources (projectDir : Path) (given : Option (List Path)) :
    R (discoverSources projectDir given) (discoverSources projectDir given) := by
  have haccept : ∀ sources place, R (Action.ofExcept .build (acceptSources sources place))
      (Action.ofExcept .build (acceptSources sources place)) := by
    intro sources place
    unfold acceptSources
    split
    · exact hR.stop rfl
    · split
      · exact hR.stop rfl
      · exact hR.pure _
  cases given with
  | some sources => exact haccept _ _
  | none => exact hR.bind (hR.ask _) fun sources => haccept _ _

theorem checkSketch (dir : Path) (outputs : List Path) :
    R (checkSketch dir outputs) (checkSketch dir outputs) := by
  refine hR.tryCatch (hR.sketchCheck _ _) (fun f hf => ?_) rfl
  split
  · exact ⟨_, rfl, hR.told rfl⟩
  · exact ⟨_, rfl, hf⟩

theorem compileSketch (binary : Json) (hv : v = true → v' = true)
    (hecho : ∀ s, v' = true → Line s) (sketch : Sketch.Checked) (fqbn : String) (cache : Path)
    (result : Result) :
    R (compileSketch ⟨binary, v⟩ sketch fqbn cache result)
      (compileSketch ⟨binary, v'⟩ sketch fqbn cache result) := by
  refine hR.tryCatch (hR.compile binary hv hecho _ _ _) (fun f hf => ?_) rfl
  split
  · exact ⟨_, rfl, hR.told rfl⟩
  · exact ⟨_, rfl, hf⟩

section Steps

variable (hstep : ∀ s, Line ("[" ++ s))

include hstep

theorem step (number : Nat) {message : Str} (hmessage : v = v' ∨ message.isText = true) :
    R (Builder.step (.ofSettings settings v) number message)
      (Builder.step (.ofSettings settings v') number message) := by
  refine hR.bind (hR.log _ _) fun _ => ?_
  refine hR.tell (hmessage.imp_right fun h => by simp [h]) fun text htext => ?_
  obtain ⟨s, -, rfl⟩ := Str.eq_text_of_append_eq htext
  have h := hstep (toString number ++ "/6] " ++ s)
  rwa [← String.append_assoc, ← String.append_assoc] at h

theorem makeRoom {r : Request}
    (hboard : v = v' ∨ (boardOf r.board r.manifest settings).isWord = true)
    (hroot : v = v' ∨ r.outputDir.isSome = true ∨ r.manifest.build.outputDir.isWord = true) :
    R (Builder.makeRoom (.ofSettings settings v) r)
      (Builder.makeRoom (.ofSettings settings v') r) := by
  refine hR.bind (hR.step settings hstep _ (hboard.imp_right fun h => ?_)) fun _ => ?_
  · have htext : (boardOf r.board r.manifest settings).toStr.isText = true := h
    simp [Builder.boardFor, Builder.ofSettings, htext]
  have houtput : (∃ e, outputRoot r = MonadExcept.throw (.kind e)) ∨
      ∃ root, outputRoot r = Pure.pure root ∧ (v = v' ∨ root.spelling.isText = true) := by
    unfold outputRoot
    cases hdir : r.outputDir with
    | some dir => exact .inr ⟨.named dir, rfl, .inr rfl⟩
    | none =>
        obtain h | ⟨root, hjoin, htext⟩ :=
          joinSetting_cases r.projectDir r.manifest.build.outputDir
        · exact .inl h
        · refine .inr ⟨root, hjoin, hroot.imp_right fun h => ?_⟩
          rw [htext]
          simpa [hdir] using h
  refine hR.bind_same (houtput.imp_right fun ⟨root, hroot, htext⟩ => ⟨root, hroot, ?_⟩)
  refine hR.bind (hR.step settings hstep _ (htext.imp_right fun h => ?_)) fun _ => ?_
  · simp [Directory.isText_spelling_child, h]
  · refine hR.bind (hR.ofExcept fun _ _ => rfl) fun _ => ?_
    exact hR.bind (hR.makeSketchDir _) fun _ => hR.pure _

theorem findSources {r : Request}
    (hboard : v = v' ∨ (boardOf r.board r.manifest settings).isWord = true)
    (hname : Thrown (.build (.tool (.translatorNotInstalled
      (settings.coreBinary.orElse Translator.defaultBinary).toStr)))) :
    R (Builder.findSources (.ofSettings settings v) r)
      (Builder.findSources (.ofSettings settings v') r) := by
  refine hR.bind ?_ fun _ => ?_
  · refine hR.bind (hR.bind (hR.findSetting _) fun _ => hR.pure _) fun there => ?_
    split
    · exact hR.throw hname
    · exact hR.pure _
  · refine hR.bind (hR.discoverSources _ _) fun sources => ?_
    refine hR.bind (hR.step settings hstep _ (hboard.imp_right fun h => ?_)) fun _ => hR.pure _
    have htext : (boardOf r.board r.manifest settings).toStr.isText = true := h
    simp [Builder.boardFor, Builder.ofSettings, htext]

theorem builderCompile (hv : v = true → v' = true) (hecho : ∀ s, v' = true → Line s)
    (root : Path) (result : Result) :
    R (Builder.compile (.ofSettings settings v) root result)
      (Builder.compile (.ofSettings settings v') root result) := by
  unfold Builder.compile
  split
  · refine hR.bind (hR.step settings hstep _ (.inr rfl)) fun _ => ?_
    refine hR.bind (hR.checkSketch _ _) fun sketch => ?_
    refine hR.bind (hR.step settings hstep _ (.inr rfl)) fun _ => ?_
    refine hR.bind (hR.compileSketch _ hv hecho _ _ _ _) fun firmware => ?_
    exact hR.log_bind (hR.pure _)
  · exact hR.stop rfl

theorem finish (r : Request) (hv : v = true → v' = true)
    (hecho : ∀ s, r.compile = true → v' = true → Line s) (root : Path) (result : Result) :
    R (Builder.finish (.ofSettings settings v) r root result)
      (Builder.finish (.ofSettings settings v') r root result) := by
  refine hR.bind ?_ fun _ => ?_
  · refine hR.bind (hR.clearStale _ _) fun _ => ?_
    refine hR.bind (hR.bind (hR.change _) fun _ => hR.pure _) fun entry => ?_
    exact hR.step settings hstep _ (.inr rfl)
  · split
    · next hcompile =>
        exact hR.builderCompile settings hstep hv (fun s => hecho s hcompile) _ _
    · exact hR.pure _

end Steps

theorem translateAll (binary : Json) (hmargin : ∀ s, Line ("  " ++ s)) (dir : Path) {board : Json}
    (sourceMap : Bool) (hwords : v = v' ∨ binary.isWord = true ∧ board.isWord = true)
    (sources : List Path) :
    R (translateAll ⟨binary, v⟩ dir board sourceMap sources)
      (translateAll ⟨binary, v'⟩ dir board sourceMap sources) := by
  have hecho : ∀ s, Line ("  core  " ++ s) := by
    intro s
    have h := hmargin ("core  " ++ s)
    rwa [← String.append_assoc] at h
  induction sources with
  | nil => exact hR.pure []
  | cons source rest ih =>
      refine hR.bind (hR.translate binary hecho _ _ _ hwords) fun outcome => ?_
      refine hR.bind (hR.log _ _) fun _ => ?_
      refine hR.bind ?_ fun _ => hR.bind ih fun _ => hR.pure _
      have h := hmargin (source.name ++ "  ->  " ++ (Sketch.outputOf dir source).name)
      rw [← String.append_assoc, ← String.append_assoc] at h
      exact hR.print h h

/-- **Builds.** What is printed is a line with a margin or the line of a step. Only a verbose build
that compiles prints what another program has told. Two builds of different verbosity have nothing
torn to tell of. -/
theorem build (hmargin : ∀ s, Line ("  " ++ s)) (hstep : ∀ s, Line ("[" ++ s)) {r : Request}
    (hv : v = true → v' = true) (hecho : ∀ s, r.compile = true → v' = true → Line s)
    (hwords : v = v' ∨ r.IsTold settings)
    (hname : Thrown (.build (.tool (.translatorNotInstalled
      (settings.coreBinary.orElse Translator.defaultBinary).toStr)))) :
    R (Builder.build (.ofSettings settings v) r) (Builder.build (.ofSettings settings v') r) := by
  refine hR.bind (hR.bind (hR.makeRoom settings hstep (hwords.imp_right (·.board))
    (hwords.imp_right (·.root))) fun root => ?_) fun prepared => ?_
  · exact hR.bind (hR.findSources settings hstep (hwords.imp_right (·.board)) hname)
      fun sources => hR.pure _
  refine hR.bind (hR.translateAll _ hmargin _ _
    (hwords.imp_right fun h => ⟨h.translator, h.board⟩) _) fun done => ?_
  exact hR.finish settings hstep r hv hecho _ _

end Builds

/-! ### Checks and uploads -/

section Uploads

open Upload

variable (v v' : Bool)

theorem detect (settings : Settings) :
    R (Uploader.detect ⟨settings, v⟩) (Uploader.detect ⟨settings, v'⟩) := by
  refine hR.bind (hR.run (by simp) (.same _) none false) fun o => ?_
  split
  · exact hR.stop rfl
  · exact hR.pure _

theorem boardOf? (board : Json) : R (Uploader.boardOf? board) (Uploader.boardOf? board) := by
  unfold Uploader.boardOf?
  split
  · exact hR.pure _
  · split
    · exact hR.stop rfl
    · exact hR.pure _

theorem isThere (dir : Directory) : R dir.isThere dir.isThere := by
  cases dir with
  | named p => exact hR.ask (·.exists? p)
  | torn => exact hR.pure false

/-- A check runs as it does itself. -/
theorem check (hecho : ∀ s, Line ("  core  " ++ s)) (projectDir : Path) (manifest : Manifest)
    (settings : Settings) (board : Option String) (verbose : Bool)
    (hname : Thrown (.build (.tool (.translatorNotFound
      (settings.coreBinary.orElse Translator.defaultBinary).toStr)))) :
    R (Check.run projectDir manifest settings board verbose)
      (Check.run projectDir manifest settings board verbose) := by
  have hall : ∀ t board sources, R (Check.checkAll t board sources)
      (Check.checkAll t board sources) := by
    intro t board sources
    induction sources with
    | nil => exact hR.pure []
    | cons source rest ih =>
        refine hR.bind (hR.translatorCheck hecho _ _ _) fun verdict => ?_
        exact hR.bind (hR.log _ _) fun _ => hR.bind ih fun _ => hR.pure _
  refine hR.bind (hR.bind (hR.findSetting _) fun _ => hR.pure _) fun there => ?_
  split
  · exact hR.throw hname
  · refine hR.bind (hR.ask _) fun sources => ?_
    split
    · exact hR.stop rfl
    · exact hR.bind (hall _ _ sources) fun _ => hR.pure _

variable (hlines : ∀ s, Line s)

include hlines

theorem portFor (settings : Settings) (given : Option String) :
    R (Uploader.portFor ⟨settings, v⟩ given) (Uploader.portFor ⟨settings, v'⟩ given) := by
  unfold Uploader.portFor
  dsimp only
  split
  · exact hR.pure _
  · split
    · exact hR.stop rfl
    · refine hR.bind (hR.print (hlines _) (hlines _)) fun _ => ?_
      refine hR.bind (hR.detect v v' settings) fun found => ?_
      split
      · exact hR.bind (hR.print (hlines _) (hlines _)) fun _ => hR.pure _
      · exact hR.stop rfl

/-- A command of texts is shown, or not, before what follows. -/
theorem show_bind {command command' : List Json} {f g : Unit → Action β}
    (htext : v = v' ∧ command = command' ∨ v = false ∧ ∀ w ∈ command', w.isText = true)
    (hfg : R (f ()) (g ())) :
    R (if v = true then Tool.spell command >>= fun s => Action.printStr ("Running: " ++ s) >>= f
        else f ())
      (if v' = true then Tool.spell command' >>= fun s => Action.printStr ("Running: " ++ s) >>= g
        else g ()) := by
  obtain ⟨rfl, rfl⟩ | ⟨rfl, htext⟩ := htext
  · split
    · refine hR.spell_bind fun line _ => hR.bind ?_ fun _ => hfg
      exact hR.printStr fun _ _ => hlines _
    · exact hfg
  · obtain ⟨line, hline⟩ := Tool.spell_of_isText htext
    have hloud : R (if False then Action.print "" >>= f else f ())
        (if v' = true then Action.print ("Running: " ++ line) >>= g else g ()) :=
      hR.mention_bind (fun _ => hlines _) (fun _ => hlines _) hfg
    rw [if_neg id] at hloud
    rw [if_neg (by simp), hline, pure_bind]
    exact hloud

section Sending

variable {settings : Settings} (hv : v = true → v' = true)

include hv

/-- A verbose upload shows its command, and a command is shown only if all its words are texts. -/
theorem send {dir : Directory} (htext : v = v' ∨
      (settings.arduinoCli.orElse Compiler.defaultBinary).isText = true ∧
        dir.spelling.isText = true) (fqbn port : String) :
    R (Uploader.send ⟨settings, v⟩ fqbn port dir) (Uploader.send ⟨settings, v'⟩ fqbn port dir) := by
  unfold Uploader.send
  refine hR.show_bind v v' hlines ?_ ?_
  · rcases htext with rfl | ⟨htool, hdir⟩
    · exact .inl ⟨rfl, rfl⟩
    · cases v with
      | true => exact .inl ⟨(hv rfl).symm, by rw [hv rfl]⟩
      | false => exact .inr ⟨rfl, Uploader.isText_of_mem_command (u := ⟨settings, v'⟩) htool hdir⟩
  · refine hR.bind (hR.log _ _) fun _ => ?_
    refine hR.bind (hR.run (by simp [Uploader.command])
      (Uploader.louder_command settings hv _ _ _) none true) fun output => ?_
    unfold Uploader.conclude
    split
    · exact hR.bind (hR.ofExcept fun _ _ => rfl) fun _ => hR.pure _
    · exact hR.pure _

/-- **Uploads.** Two of different verbosity have only texts to tell of. -/
theorem upload {o : Options} (htext : v = v' ∨ o.IsTold settings) :
    R (Uploader.upload ⟨settings, v⟩ o) (Uploader.upload ⟨settings, v'⟩ o) := by
  have hdir : (∃ e, Uploader.buildDir o = MonadExcept.throw (.kind e)) ∨
      ∃ dir, Uploader.buildDir o = Pure.pure dir ∧ (v = v' ∨ dir.spelling.isText = true) := by
    unfold Uploader.buildDir
    cases hgiven : o.buildDir with
    | some dir => exact .inr ⟨.named dir, rfl, .inr rfl⟩
    | none =>
        obtain ⟨e, hjoin⟩ | ⟨root, hjoin, hroot⟩ :=
          Build.joinSetting_cases o.projectDir o.manifest.build.outputDir
        · exact .inl ⟨e, by dsimp only; rw [hjoin]; rfl⟩
        · refine .inr ⟨root.child Build.cacheName, by dsimp only; rw [hjoin]; rfl,
            htext.imp_right fun h => ?_⟩
          rw [Directory.isText_spelling_child, hroot]
          simpa [hgiven] using h.dir
  refine hR.bind_same (hdir.imp_right fun ⟨dir, hdir, hspelling⟩ => ⟨dir, hdir, ?_⟩)
  refine hR.bind (hR.portFor v v' hlines settings o.port) fun port => ?_
  refine hR.bind (hR.boardOf? _) fun board => ?_
  split
  · refine hR.bind (hR.isThere dir) fun there => hR.log_bind ?_
    refine hR.send v v' hlines hv ?_ _ port
    rcases htext with rfl | htext
    · exact .inl rfl
    · exact hspelling.imp_right fun h => ⟨htext.tool, h⟩
  · exact hR.stop rfl

end Sending

end Uploads

end Congruence

end Action

end SketchBuild
