import Mathlib.Data.List.Nodup
import SketchBuild.Proofs.CommandLine.Config

/-!
# The order of options

After the word for a command come its options, each with its value if it takes one, and possibly a
project directory. Such an item is one or two words, and the items may stand in any order:

    build lamp -b uno --verbose          build --verbose lamp --board uno

The words pass two grammars. That of the program knows none of the options, but takes a command
together with all that follows it; that of the command takes item by item (`takeAll_items`) and
notes each under the key of its option. As every option is given at most once, what is noted does
not depend on the order.
-/

namespace SketchBuild.CommandLine

open Text (startsWith)

/-! ## Items -/

/-- What can be given to a command: an option under one of its spellings, with a value or without,
or the project directory. -/
inductive Item
  | option (o : OptionSpec) (spelling : String) (value : Option String)
  | project (word : String)
deriving DecidableEq, Repr

namespace Item

/-- The words of an item. -/
def words : Item → List String
  | option _ spelling value => spelling :: value.toList
  | project word => [word]

/-- The option that an item is about; `none` stands for the project directory. -/
def subject : Item → Option OptionSpec
  | option o _ _ => some o
  | project _ => none

/-- The text that an item gives to its subject. -/
def text : Item → Option String
  | option _ _ value => value
  | project word => some word

/-- The items of a command: its flags alone, the options that take a value with one, and the project
directory. No value starts with a hyphen. The option for help is none of them: it ends the reading
with the help text. -/
inductive Fits (c : CommandName) : Item → Prop
  | flag {o : OptionSpec} {spelling : String} : o ∈ c.grammar.options → o.effect = .flag →
      spelling ∈ o.names → Fits c (option o spelling none)
  | value {o : OptionSpec} {spelling value : String} : o ∈ c.grammar.options → o.effect = .value →
      spelling ∈ o.names → startsWith value "-" = false → Fits c (option o spelling (some value))
  | project {word : String} : startsWith word "-" = false → Fits c (project word)

/-- The item about a subject. -/
def about (items : List Item) (subject : Option OptionSpec) : Option Item :=
  items.find? fun i => i.subject = subject

end Item

/-- Items that a command line may give to a command: none twice. -/
structure CommandName.Takes (c : CommandName) (items : List Item) : Prop where
  fits : ∀ i ∈ items, i.Fits c
  nodup : (items.map Item.subject).Nodup

section Asked

variable (items : List Item)

/-- Whether an option is among the items. -/
def isGiven (o : OptionSpec) : Bool := (Item.about items (some o)).isSome

/-- The value that the items give to an option. -/
def givenText (o : OptionSpec) : Option String := (Item.about items (some o)).bind Item.text

/-- The project directory that the items give. -/
def givenProject : Option Path := ((Item.about items none).bind Item.text).map .ofString

/-- What some items ask of a command that works on a project and has options. -/
def CommandName.asked : CommandName → Option Request
  | .build =>
    some (.build
      { projectDir := givenProject items, board := givenText items boardOption
        outputDir := (givenText items outOption).map .ofString
        compile := isGiven items compileOption, sourceMap := isGiven items sourceMapOption
        verbose := isGiven items verboseOption })
  | .check =>
    some (.check
      { projectDir := givenProject items, board := givenText items boardOption
        verbose := isGiven items verboseOption })
  | .upload =>
    some (.upload
      { projectDir := givenProject items, port := givenText items portOption
        board := givenText items boardOption
        buildDir := (givenText items buildDirOption).map .ofString
        verbose := isGiven items verboseOption })
  | _ => none

end Asked

/-! ## Finding an item -/

namespace Item

variable {items items' : List Item} {i : Item} {subject : Option OptionSpec}

theorem about_eq_none_iff : about items subject = none ↔ subject ∉ items.map Item.subject := by
  simp [about]

theorem about_cons_of_eq (h : i.subject = subject) : about (i :: items) subject = some i := by
  simp [about, h]

theorem about_cons_of_ne (h : i.subject ≠ subject) :
    about (i :: items) subject = about items subject := by
  simp [about, h]

theorem subject_of_about (h : about items subject = some i) : i.subject = subject :=
  of_decide_eq_true (List.find?_some h :)

/-- An item that is given is the one about its subject. -/
theorem about_eq_some_iff (h : (items.map Item.subject).Nodup) :
    about items subject = some i ↔ i ∈ items ∧ i.subject = subject := by
  constructor
  · intro hi
    exact ⟨List.mem_of_find?_eq_some hi, subject_of_about hi⟩
  · rintro ⟨hi, rfl⟩
    cases hfind : about items i.subject with
    | none => exact absurd (List.mem_map_of_mem hi) (about_eq_none_iff.mp hfind)
    | some i' =>
        have hi' : i' ∈ items := List.mem_of_find?_eq_some hfind
        rw [List.inj_on_of_nodup_map h hi' hi (subject_of_about hfind)]

/-- The order of the items does not matter. -/
theorem about_perm (hperm : items'.Perm items) (h : (items.map Item.subject).Nodup)
    (subject : Option OptionSpec) : about items' subject = about items subject := by
  have h' : (items'.map Item.subject).Nodup := (hperm.map Item.subject).nodup_iff.mpr h
  refine Option.ext fun i => ?_
  rw [about_eq_some_iff h, about_eq_some_iff h', hperm.mem_iff]

end Item

theorem CommandName.Takes.perm {c : CommandName} {items items' : List Item} (h : c.Takes items)
    (hperm : items'.Perm items) : c.Takes items' :=
  ⟨fun i hi => h.fits i (hperm.mem_iff.mp hi),
    (hperm.map Item.subject).nodup_iff.mpr h.nodup⟩

theorem CommandName.Takes.asked_perm {c : CommandName} {items items' : List Item}
    (h : c.Takes items) (hperm : items'.Perm items) : c.asked items' = c.asked items := by
  have habout : Item.about items' = Item.about items :=
    funext fun subject => Item.about_perm hperm h.nodup subject
  unfold asked givenProject givenText isGiven
  rw [habout]

/-! ## Marking the words -/

theorem CommandName.mem_all (c : CommandName) : c ∈ all := by
  cases c <;> decide

theorem mark_of_plain (g : Grammar) {word : String} (h : startsWith word "-" = false) :
    g.mark word = .ok .plain := by
  rw [Grammar.mark, h]
  rfl

/-- The grammar of the program and that of the command know what to make of a spelling. -/
theorem mark_of_spelling {c : CommandName} {o : OptionSpec} {spelling : String}
    (ho : o ∈ c.grammar.options) (hspelling : spelling ∈ o.names) :
    spelling ≠ "--" ∧ (programGrammar.mark spelling).isOk = true ∧
      c.grammar.mark spelling = .ok (.option ⟨some o, spelling, none⟩) := by
  have hall : ∀ c ∈ CommandName.all, ∀ o ∈ c.grammar.options, ∀ spelling ∈ o.names,
      spelling ≠ "--" ∧ (programGrammar.mark spelling).isOk = true ∧
        c.grammar.mark spelling = .ok (.option ⟨some o, spelling, none⟩) := by
    decide +kernel
  exact hall c c.mem_all o ho spelling hspelling

/-- If each word can be marked, all can. -/
theorem exists_markAll {g : Grammar} {words : List String}
    (h : ∀ word ∈ words, word ≠ "--" ∧ (g.mark word).isOk = true) :
    ∃ marks, g.markAll words = .ok marks ∧ marks.map Prod.fst = words := by
  induction words with
  | nil => exact ⟨[], rfl, rfl⟩
  | cons word words ih =>
      obtain ⟨⟨hne, hok⟩, hwords⟩ := List.forall_mem_cons.mp h
      obtain ⟨marks, hmarks, hfst⟩ := ih hwords
      cases hmark : g.mark word with
      | error e =>
          rw [hmark] at hok
          cases hok
      | ok m =>
          refine ⟨(word, m) :: marks, ?_, by rw [List.map_cons, hfst]⟩
          rw [Grammar.markAll, if_neg hne, hmark, hmarks]

namespace Item

/-- The words of an item as the command's grammar marks them. -/
def marked : Item → List (String × Mark)
  | option o spelling value =>
    (spelling, .option ⟨some o, spelling, none⟩) :: value.toList.map fun v => (v, .plain)
  | project word => [(word, .plain)]

theorem markAll_append {c : CommandName} {i : Item} (h : i.Fits c) {words : List String}
    {marks : List (String × Mark)} (hwords : c.grammar.markAll words = .ok marks) :
    c.grammar.markAll (i.words ++ words) = .ok (i.marked ++ marks) := by
  have hstep : ∀ {word m ws ms}, word ≠ "--" ∧ c.grammar.mark word = .ok m →
      c.grammar.markAll ws = .ok ms → c.grammar.markAll (word :: ws) = .ok ((word, m) :: ms) := by
    intro word m ws ms hword hws
    rw [Grammar.markAll, if_neg hword.1, hword.2, hws]
  cases h with
  | flag ho heffect hspelling =>
      obtain ⟨hne, -, hmark⟩ := mark_of_spelling ho hspelling
      exact hstep ⟨hne, hmark⟩ hwords
  | value ho heffect hspelling hvalue =>
      obtain ⟨hne, -, hmark⟩ := mark_of_spelling ho hspelling
      exact hstep ⟨hne, hmark⟩ (hstep ⟨ne_dashes hvalue, mark_of_plain _ hvalue⟩ hwords)
  | project hword => exact hstep ⟨ne_dashes hword, mark_of_plain _ hword⟩ hwords

theorem markAll_items {c : CommandName} {items : List Item} (h : ∀ i ∈ items, i.Fits c) :
    c.grammar.markAll (items.flatMap words) = .ok (items.flatMap marked) := by
  induction items with
  | nil => rfl
  | cons i items ih =>
      obtain ⟨hi, hitems⟩ := List.forall_mem_cons.mp h
      rw [List.flatMap_cons, List.flatMap_cons]
      exact markAll_append hi (ih hitems)

/-- No word of an item is marked as two hyphens. -/
theorem ne_dashes_of_mem_marked {i : Item} {p : String × Mark} (h : p ∈ i.marked) :
    p.2 ≠ .dashes := by
  cases i with
  | option o spelling value =>
      rcases List.mem_cons.mp h with rfl | h
      · simp
      · obtain ⟨v, -, rfl⟩ := List.mem_map.mp h
        simp
  | project word =>
      rw [List.mem_singleton.mp h]
      simp

end Item

/-! ## Taking the items -/

/-- What is noted of an item. -/
def Item.note (m : Matches) : Item → Matches
  | option o _ none => { m with flags := o.key :: m.flags }
  | option o _ (some value) => { m with values := (o.key, some value) :: m.values }
  | project word => { m with words := ("project_dir", word) :: m.words }

/-- An option is taken with its value, whatever slots are open. -/
theorem takeAll_option {c : CommandName} {o : OptionSpec} {spelling : String}
    {value : Option String} (h : (Item.option o spelling value).Fits c) (slots : List Slot)
    (m : Matches) (rest : List (String × Mark)) :
    c.grammar.takeAll slots m ((Item.option o spelling value).marked ++ rest) =
      c.grammar.takeAll slots ((Item.option o spelling value).note m) rest := by
  cases h with
  | flag ho heffect hspelling =>
      have htake : c.grammar.take (nextPlain rest) o spelling none = .ok ([(o, none)], false) := by
        simp [Grammar.take, heffect]
      have happly : m.apply [(o, none)] = .ok { m with flags := o.key :: m.flags } := by
        simp [Matches.apply, heffect]
      rw [Item.marked, Option.toList_none, List.map_nil, List.cons_append, List.nil_append,
        Grammar.takeAll, htake]
      dsimp only
      rw [happly]
      rfl
  | @value o spelling v ho heffect hspelling hvalue =>
      have htake : c.grammar.take (some v) o spelling none = .ok ([(o, some v)], true) := by
        simp [Grammar.take, heffect]
      have happly : m.apply [(o, some v)] =
          .ok { m with values := (o.key, some v) :: m.values } := by
        simp [Matches.apply, heffect]
      rw [Item.marked, Option.toList_some, List.map_singleton, List.cons_append, List.cons_append,
        List.nil_append, Grammar.takeAll, nextPlain, htake]
      dsimp only
      rw [happly]
      rfl

/-- The project directory is taken if its slot is open, which closes it. -/
theorem takeAll_project (g : Grammar) {word : String} (h : startsWith word "-" = false)
    (m : Matches) {rest : List (String × Mark)} (hrest : ∀ p ∈ rest, p.2 ≠ .dashes) :
    g.takeAll [projectSlot] m ((Item.project word).marked ++ rest) =
      g.takeAll [] ((Item.project word).note m) rest := by
  have hcount : optionalCount ((word, .plain) :: rest) = 1 := by
    have hafter : rest.takeWhile (·.2 = .dashes) = [] := by
      cases rest with
      | nil => rfl
      | cons p rest =>
          rw [List.takeWhile_cons_of_neg]
          simpa using hrest p List.mem_cons_self
    simp [optionalCount, hafter]
  have hfill : m.fillSlots [projectSlot] ((word, .plain) :: rest) =
      .ok ((Item.project word).note m, 1, []) := by
    rw [projectSlot, Matches.fillSlots, hcount]
    simp [fill_of_plain m "project_dir" h, Matches.fillSlots, Item.note]
  rw [Item.marked, List.cons_append, List.nil_append, Grammar.takeAll.eq_def]
  dsimp only
  rw [hfill]
  rfl

/-- **All items are taken.** The slot for the project directory is open as long as none was
given. -/
theorem takeAll_items {c : CommandName} {items : List Item} (h : c.Takes items)
    {slots : List Slot} (hslots : none ∈ items.map Item.subject → slots = [projectSlot])
    (m : Matches) :
    c.grammar.takeAll slots m (items.flatMap Item.marked) = .ok (items.foldl Item.note m) := by
  induction items generalizing slots m with
  | nil => rw [List.flatMap_nil, Grammar.takeAll, List.foldl_nil]
  | cons i items ih =>
      obtain ⟨hi, hitems⟩ := List.forall_mem_cons.mp h.fits
      obtain ⟨hnew, hnodup⟩ := List.nodup_cons.mp h.nodup
      rw [List.flatMap_cons, List.foldl_cons]
      cases i with
      | option o spelling value =>
          rw [takeAll_option hi]
          exact ih ⟨hitems, hnodup⟩ (fun hmem => hslots (List.mem_cons_of_mem _ hmem)) _
      | project word =>
          have hdashes : ∀ p ∈ items.flatMap Item.marked, p.2 ≠ .dashes := by
            intro p hp
            obtain ⟨i, -, hp⟩ := List.mem_flatMap.mp hp
            exact Item.ne_dashes_of_mem_marked hp
          cases hslots List.mem_cons_self
          cases hi with
          | project hword =>
              rw [takeAll_project _ hword m hdashes]
              exact ih ⟨hitems, hnodup⟩ (fun hmem => absurd hmem hnew) _

/-! ## What was noted -/

/-- What a look at the matches shows after all items: what the item about its subject shows, or what
was there before. -/
theorem foldl_note {β : Type} {c : CommandName} {subject : Option OptionSpec} (look : Matches → β)
    (shown : Item → β)
    (hself : ∀ (i : Item) m, i.Fits c → i.subject = subject → look (i.note m) = shown i)
    (hother : ∀ (i : Item) m, i.Fits c → i.subject ≠ subject → look (i.note m) = look m)
    {items : List Item} (h : c.Takes items) (m : Matches) :
    look (items.foldl Item.note m) = ((Item.about items subject).map shown).getD (look m) := by
  induction items generalizing m with
  | nil => rfl
  | cons i items ih =>
      obtain ⟨hi, hitems⟩ := List.forall_mem_cons.mp h.fits
      obtain ⟨hnew, hnodup⟩ := List.nodup_cons.mp h.nodup
      rw [List.foldl_cons, ih ⟨hitems, hnodup⟩]
      by_cases hsubject : i.subject = subject
      · -- no later item is about the same
        rw [hsubject] at hnew
        rw [Item.about_eq_none_iff.mpr hnew, Item.about_cons_of_eq hsubject]
        exact hself i m hi hsubject
      · rw [Item.about_cons_of_ne hsubject, hother i m hi hsubject]

/-- The options of a command have different keys. -/
theorem option_eq_of_key {c : CommandName} {o o' : OptionSpec} (ho : o ∈ c.grammar.options)
    (ho' : o' ∈ c.grammar.options) (h : o.key = o'.key) : o = o' := by
  have hall : ∀ c ∈ CommandName.all, ∀ o ∈ c.grammar.options, ∀ o' ∈ c.grammar.options,
      o.key = o'.key → o = o' := by
    decide +kernel
  exact hall c c.mem_all o ho o' ho' h

section Noted

variable {c : CommandName} {items : List Item} {o : OptionSpec}

theorem value?_foldl_note (h : c.Takes items) (ho : o ∈ c.grammar.options)
    (heffect : o.effect = .value) :
    (items.foldl Item.note {}).value? o.key = givenText items o := by
  have hlook := @foldl_note _ c (some o) (·.value? o.key) Item.text ?_ ?_ items h {}
  · rw [hlook, givenText]
    cases Item.about items (some o) <;> rfl
  · intro i m hi hsubject
    cases hi with
    | flag _ heffect' _ =>
        cases Option.some.inj hsubject
        cases heffect.symm.trans heffect'
    | value _ _ _ _ =>
        cases Option.some.inj hsubject
        simp [Matches.value?, Item.note, Item.text]
    | project => cases hsubject
  · intro i m hi hsubject
    cases hi with
    | @value o' spelling v ho' _ _ _ =>
        have hne : (o.key == o'.key) = false := by
          rw [beq_eq_false_iff_ne]
          intro hkey
          exact hsubject (congrArg some (option_eq_of_key ho ho' hkey)).symm
        dsimp only [Matches.value?, Item.note]
        rw [List.lookup_cons, hne]
    | flag => rfl
    | project => rfl

theorem flag_foldl_note (h : c.Takes items) (ho : o ∈ c.grammar.options)
    (heffect : o.effect = .flag) :
    (items.foldl Item.note {}).flag o.key = isGiven items o := by
  have hlook := @foldl_note _ c (some o) (·.flag o.key) (fun _ => true) ?_ ?_ items h {}
  · rw [hlook, isGiven]
    cases Item.about items (some o) <;> rfl
  · intro i m hi hsubject
    cases hi with
    | flag _ _ _ =>
        cases Option.some.inj hsubject
        simp [Matches.flag, Item.note]
    | value _ heffect' _ _ =>
        cases Option.some.inj hsubject
        cases heffect.symm.trans heffect'
    | project => cases hsubject
  · intro i m hi hsubject
    cases hi with
    | @flag o' spelling ho' _ _ =>
        have hne : o.key ≠ o'.key := fun hkey =>
          hsubject (congrArg some (option_eq_of_key ho ho' hkey)).symm
        simp [Matches.flag, Item.note, hne]
    | value => rfl
    | project => rfl

theorem projectDir_foldl_note (h : c.Takes items) :
    (items.foldl Item.note {}).projectDir = givenProject items := by
  have hlook := @foldl_note _ c none (·.word? "project_dir") Item.text ?_ ?_ items h {}
  · rw [Matches.projectDir, hlook, givenProject]
    cases Item.about items none <;> rfl
  · intro i m hi hsubject
    cases hi with
    | project _ => simp [Matches.word?, Item.note, Item.text]
    | flag => cases hsubject
    | value => cases hsubject
  · intro i m hi hsubject
    cases hi with
    | project => exact absurd rfl hsubject
    | flag => rfl
    | value => rfl

theorem leftOver_foldl_note (items : List Item) (m : Matches) :
    (items.foldl Item.note m).leftOver = m.leftOver := by
  induction items generalizing m with
  | nil => rfl
  | cons i items ih =>
      rw [List.foldl_cons, ih]
      cases i with
      | option o spelling value => cases value <;> rfl
      | project word => rfl

theorem asked_foldl_note (h : c.Takes items) {r : Request} (hr : c.asked items = some r) :
    c.request (items.foldl Item.note {}) = r := by
  have hproject := projectDir_foldl_note h
  have hboard := @value?_foldl_note c items boardOption h
  have hverbose := @flag_foldl_note c items verboseOption h
  cases c with
  | build =>
      cases hr
      have hout := @value?_foldl_note .build items outOption h (by decide) rfl
      have hcompile := @flag_foldl_note .build items compileOption h (by decide) rfl
      have hmap := @flag_foldl_note .build items sourceMapOption h (by decide) rfl
      rw [← hproject, ← hboard (by decide) rfl, ← hverbose (by decide) rfl, ← hout, ← hcompile,
        ← hmap]
      rfl
  | check =>
      cases hr
      rw [← hproject, ← hboard (by decide) rfl, ← hverbose (by decide) rfl]
      rfl
  | upload =>
      cases hr
      have hport := @value?_foldl_note .upload items portOption h (by decide) rfl
      have hdir := @value?_foldl_note .upload items buildDirOption h (by decide) rfl
      rw [← hproject, ← hboard (by decide) rfl, ← hverbose (by decide) rfl, ← hport, ← hdir]
      rfl
  | boards | clean | config | version => cases hr

end Noted

/-! ## Both grammars -/

/-- The program takes a command with all the words after it. -/
theorem parse_program (c : CommandName) {words : List String}
    (h : ∀ word ∈ words, word ≠ "--" ∧ (programGrammar.mark word).isOk = true) :
    programGrammar.parse (c.word :: words) = .ok { command := some (c.word, words) } := by
  obtain ⟨marks, hmarks, hfst⟩ := exists_markAll h
  have hword : startsWith c.word "-" = false := by cases c <;> rfl
  have hchoice : ∃ c' ∈ CommandName.all, c'.word = c.word := ⟨c, c.mem_all, rfl⟩
  have hfill : ({} : Matches).fillSlots programGrammar.slots ((c.word, .plain) :: marks) =
      .ok ({ command := some (c.word, words) }, marks.length + 1, []) := by
    rw [show programGrammar.slots = [.command "command" (CommandName.all.map (·.word))] from rfl,
      Matches.fillSlots]
    simp [hfst, hchoice]
  rw [Grammar.parse, Grammar.markAll, if_neg (ne_dashes hword), mark_of_plain programGrammar hword,
    hmarks]
  dsimp only
  rw [Grammar.takeAll.eq_def]
  dsimp only
  rw [hfill]
  dsimp only
  rw [List.drop_length, Grammar.takeAll]

theorem find?_word (c : CommandName) : CommandName.all.find? (·.word == c.word) = some c := by
  cases c <;> decide +kernel

/-- A command line of items is read as what is noted of them. -/
theorem parse_items {c : CommandName} (hslots : c.grammar.slots = [projectSlot])
    {items : List Item} (h : c.Takes items) :
    Request.parse (c.word :: items.flatMap Item.words) =
      .ok (c.request (items.foldl Item.note {})) := by
  have hmarks : ∀ word ∈ items.flatMap Item.words,
      word ≠ "--" ∧ (programGrammar.mark word).isOk = true := by
    have hplain : ∀ {word}, startsWith word "-" = false →
        word ≠ "--" ∧ (programGrammar.mark word).isOk = true := by
      intro word hword
      exact ⟨ne_dashes hword, by rw [mark_of_plain programGrammar hword]; rfl⟩
    intro word hword
    obtain ⟨i, hi, hword⟩ := List.mem_flatMap.mp hword
    cases h.fits i hi with
    | flag ho _ hspelling =>
        cases List.mem_singleton.mp hword
        obtain ⟨hne, hok, -⟩ := mark_of_spelling ho hspelling
        exact ⟨hne, hok⟩
    | value ho _ hspelling hvalue =>
        rcases List.mem_cons.mp hword with rfl | hword
        · obtain ⟨hne, hok, -⟩ := mark_of_spelling ho hspelling
          exact ⟨hne, hok⟩
        · cases List.mem_singleton.mp hword
          exact hplain hvalue
    | project hproject =>
        cases List.mem_singleton.mp hword
        exact hplain hproject
  have hcommand : c.grammar.parse (items.flatMap Item.words) = .ok (items.foldl Item.note {}) := by
    rw [Grammar.parse, Item.markAll_items h.fits]
    exact takeAll_items h (fun _ => hslots) {}
  rw [Request.parse, parse_program c hmarks]
  dsimp only
  rw [find?_word]
  dsimp only
  rw [hcommand]
  dsimp only
  rw [leftOver_foldl_note]
  rfl

/-- **The order of options does not matter.** Let a command that builds, checks or uploads be given
any of its options, each at most once and under any of its spellings, and possibly a project
directory, in any order. Then nothing is refused, and what is asked for does not depend on the
order: each option that takes a value has the one it was given, each flag that was given is set, and
everything else has its default. -/
theorem option_order_irrelevant {c : CommandName} (hc : c ∈ [.build, .check, .upload])
    {items : List Item} (h : c.Takes items) :
    ∃ r, c.asked items = some r ∧ ∀ items' : List Item, items'.Perm items →
      Request.parse (c.word :: items'.flatMap Item.words) = .ok r := by
  have hcommand : c.grammar.slots = [projectSlot] ∧ ∃ r, c.asked items = some r := by
    simp only [List.mem_cons, List.not_mem_nil, or_false] at hc
    rcases hc with rfl | rfl | rfl <;> exact ⟨rfl, _, rfl⟩
  obtain ⟨hslots, r, hr⟩ := hcommand
  refine ⟨r, hr, fun items' hperm => ?_⟩
  rw [parse_items hslots (h.perm hperm)]
  exact congrArg Except.ok (asked_foldl_note (h.perm hperm) ((h.asked_perm hperm).trans hr))

/-- Four items of a build, among them an empty value and a project directory with an equals sign. -/
def sampleItems : List Item :=
  [.option boardOption "-b" (some "uno"), .project "lamp=2", .option compileOption "--compile" none,
    .option outOption "--out" (some "")]

/-- The items of the sample are read backwards as well. -/
theorem option_order_irrelevant_sample :
    CommandName.build.Takes sampleItems ∧
    Request.parse ["build", "--out", "", "--compile", "lamp=2", "-b", "uno"] =
      .ok (.build
        { projectDir := some (.ofString "lamp=2"), board := some "uno"
          outputDir := some (.ofString ""), compile := true }) := by
  have htakes : CommandName.build.Takes sampleItems := by
    refine ⟨?_, by decide⟩
    simp only [sampleItems, List.forall_mem_cons]
    exact ⟨.value (by decide) rfl (by decide) rfl, .project rfl, .flag (by decide) rfl (by decide),
      .value (by decide) rfl (by decide) rfl, List.forall_mem_nil _⟩
  obtain ⟨r, hr, hparse⟩ := option_order_irrelevant (c := .build) (by decide) htakes
  cases hr
  exact ⟨htakes, hparse sampleItems.reverse (List.reverse_perm sampleItems)⟩

end SketchBuild.CommandLine
