import SketchBuild.Text.Digit
import SketchBuild.Text.Quoted
import SketchBuild.Text.Search

/-!
# Options and words

A grammar says which options a command has and which words it takes. The words of a command line are
first marked one by one, without regard to their place: after `--` everything is a plain word, and
before it a word that starts with a hyphen is an option unless it looks like a number or holds a
blank. Then they are taken from left to right. A word that nothing takes is left over.

Long options may be abbreviated. A value may follow its option as the next word, after an equals
sign or, for a short option, directly; flags may share one hyphen.
-/

namespace SketchBuild.CommandLine

/-- What an option does. -/
inductive Effect
  | help
  | version
  | flag
  | value
deriving DecidableEq, Repr

/-- An option: its spellings, the key of what it sets, and what it does. -/
structure OptionSpec where
  names : List String
  key : String
  effect : Effect
deriving DecidableEq, Repr

/-- A place for plain words. -/
inductive Slot
  /-- At most one word, out of the choices if there are any. -/
  | optional (name : String) (choices : List String)
  /-- One of the choices and everything after it. -/
  | command (name : String) (choices : List String)
deriving DecidableEq, Repr

/-- The options and words of a command. -/
structure Grammar where
  options : List OptionSpec
  slots : List Slot

/-- What a command line gave. Later values stand before earlier ones. -/
structure Matches where
  flags : List String := []
  values : List (String × Option String) := []
  words : List (String × String) := []
  command : Option (String × List String) := none
  leftOver : List String := []

/-- Why the words of a command line are not taken. -/
inductive Halt
  | help
  | version
  | refused (message : String)
deriving DecidableEq, Repr

/-! ### Marking -/

/-- An option found in a word: which one, under which spelling, and the value in the word. -/
structure Candidate where
  option : Option OptionSpec
  spelling : String
  explicit : Option String
deriving DecidableEq, Repr

/-- What a word looks like. -/
inductive Mark
  | option (c : Candidate)
  | plain
  | dashes
deriving DecidableEq, Repr

/-- The option with a given spelling. -/
def Grammar.find? (g : Grammar) (spelling : String) : Option OptionSpec :=
  g.options.find? (·.names.contains spelling)

/-- All spellings of all options. -/
def Grammar.spellings (g : Grammar) : List String := g.options.flatMap (·.names)

/-- The text before the first equals sign and the one after it. -/
def splitValue (word : String) : String × Option String :=
  match Text.cut? ['='] word.toList with
  | none => (word, none)
  | some (before, after) => (String.ofList before, some (String.ofList after))

/-- The spellings that a word may stand for, each with the value in the word. -/
def Grammar.readings (g : Grammar) (word : String) : List (String × Option String) :=
  if Text.startsWith word "--" then
    let (start, value) := splitValue word
    (g.spellings.filter (Text.startsWith · start)).map fun s => (s, value)
  else
    let short := String.ofList (word.toList.take 2)
    (g.spellings.filter (· == short)).map fun s => (s, some (String.ofList (word.toList.drop 2)))

/-- A negative number, whole or with a fraction. A line feed may end it. -/
def looksNegative (word : String) : Bool :=
  let digits := fun cs : List Char => !cs.isEmpty && cs.all Text.isDigit
  match word.toList with
  | '-' :: cs =>
    let body := if cs.getLast? = some '\n' then cs.dropLast else cs
    digits body ||
      match body.dropWhile Text.isDigit with
      | '.' :: fraction => digits fraction
      | _ => false
  | _ => false

/-- The option that a spelling stands for, as a mark. -/
def Grammar.markOption (g : Grammar) (spelling : String) (explicit : Option String) : Mark :=
  .option ⟨g.find? spelling, spelling, explicit⟩

/-- Marks a word that is not `--`. -/
def Grammar.mark (g : Grammar) (word : String) : Except Halt Mark :=
  if !Text.startsWith word "-" then .ok .plain
  else if g.spellings.contains word then .ok (g.markOption word none)
  else if word = "-" then .ok .plain
  else
    match splitValue word with
    | (start, some value) =>
      if g.spellings.contains start then .ok (g.markOption start (some value)) else readingsOf
    | _ => readingsOf
where
  readingsOf : Except Halt Mark :=
    match g.readings word with
    | [(spelling, value)] => .ok (g.markOption spelling value)
    | [] =>
      if looksNegative word || word.toList.contains ' ' then .ok .plain
      else .ok (.option ⟨none, word, none⟩)
    | several =>
      .error (.refused
        (s!"ambiguous option: {word} could match " ++ ", ".intercalate (several.map (·.1))))

/-- Marks all words. -/
def Grammar.markAll (g : Grammar) : List String → Except Halt (List (String × Mark))
  | [] => .ok []
  | w :: ws =>
    if w = "--" then .ok ((w, .dashes) :: ws.map fun v => (v, .plain))
    else
      match g.mark w with
      | .error h => .error h
      | .ok m =>
        match g.markAll ws with
        | .error h => .error h
        | .ok ms => .ok ((w, m) :: ms)

/-! ### Taking options -/

/-- An option and the value it was given. -/
abbrev Taken := OptionSpec × Option String

/-- The refusal of something about an option. -/
def OptionSpec.refuse (o : OptionSpec) (message : String) : Halt :=
  .refused ("argument " ++ "/".intercalate o.names ++ ": " ++ message)

/-- The refusal of a value that a flag was given. -/
def OptionSpec.refuseValue (o : OptionSpec) (value : List Char) : Halt :=
  o.refuse ("ignored explicit argument " ++ String.ofList (Text.quoteChars value))

/-- A value given to an option. Two hyphens alone give none. -/
def givenValue (value : String) : Option String := if value = "--" then none else some value

/-- Takes the option `o` whose word goes on with `tail`; `next` is the next word if it is plain.
Gives the options in the word and whether the next word was taken. -/
def Grammar.takeBundle (g : Grammar) (next : Option String) (o : OptionSpec) (short : Bool) :
    List Char → Except Halt (List Taken × Bool)
  | [] =>
    -- an empty value after an equals sign
    if o.effect = .value then .ok ([(o, some "")], false) else .error (o.refuseValue [])
  | c :: cs =>
    if o.effect = .value then .ok ([(o, givenValue (String.ofList (c :: cs)))], false)
    else if !short then .error (o.refuseValue (c :: cs))
    else
      match g.find? (String.ofList ['-', c]) with
      | none => .error (o.refuseValue (c :: cs))
      | some o' =>
        match cs with
        | [] =>
          if o'.effect = .value then
            match next with
            | none => .error (o'.refuse "expected one argument")
            | some v => .ok ([(o, none), (o', some v)], true)
          else .ok ([(o, none), (o', none)], false)
        | _ :: _ =>
          match g.takeBundle next o' short cs with
          | .error h => .error h
          | .ok (taken, used) => .ok ((o, none) :: taken, used)

/-- Takes the options in a word. -/
def Grammar.take (g : Grammar) (next : Option String) (o : OptionSpec) (spelling : String) :
    Option String → Except Halt (List Taken × Bool)
  | some value => g.takeBundle next o (!Text.startsWith spelling "--") value.toList
  | none =>
    if o.effect = .value then
      match next with
      | none => .error (o.refuse "expected one argument")
      | some v => .ok ([(o, some v)], true)
    else .ok ([(o, none)], false)

/-- Notes an option that was taken. -/
def Matches.apply (m : Matches) : List Taken → Except Halt Matches
  | [] => .ok m
  | (o, value) :: rest =>
    match o.effect with
    | .help => .error .help
    | .version => .error .version
    | .flag => Matches.apply { m with flags := o.key :: m.flags } rest
    | .value => Matches.apply { m with values := (o.key, value) :: m.values } rest

/-! ### Taking words -/

/-- The refusal of a word that is none of the choices. -/
def refuseChoice (name word : String) (choices : List String) : Halt :=
  .refused
    (s!"argument {name}: invalid choice: {Text.quote word} (choose from " ++
      ", ".intercalate (choices.map Text.quote) ++ ")")

/-- The number of words that an optional slot takes: `--` before or after, and one plain word. -/
def optionalCount (ms : List (String × Mark)) : Nat :=
  let before := (ms.takeWhile (·.2 = .dashes)).length
  let word := ((ms.drop before).take 1).countP (·.2 = .plain)
  let after := ((ms.drop (before + word)).takeWhile (·.2 = .dashes)).length
  before + word + after

/-- Gives a slot the words it takes. -/
def Matches.fill (m : Matches) (name : String) (choices : List String) (words : List String) :
    Except Halt Matches :=
  match words.erase "--" with
  | [] => .ok m
  | w :: _ =>
    if choices.isEmpty || choices.contains w then .ok { m with words := (name, w) :: m.words }
    else .error (refuseChoice name w choices)

/-- Fills slots from the front of the marked words. Gives the number of words taken and the slots
that are still open. -/
def Matches.fillSlots (m : Matches) : List Slot → List (String × Mark) →
    Except Halt (Matches × Nat × List Slot)
  | [], _ => .ok (m, 0, [])
  | .optional name choices :: slots, ms =>
    let n := optionalCount ms
    match m.fill name choices ((ms.take n).map (·.1)) with
    | .error h => .error h
    | .ok m' =>
      match m'.fillSlots slots (ms.drop n) with
      | .error h => .error h
      | .ok (m'', k, still) => .ok (m'', n + k, still)
  | .command name choices :: slots, ms =>
    match ms.dropWhile (·.2 = .dashes) with
    | (_, .plain) :: _ =>
      match ms.map (·.1) with
      | [] => .ok (m, 0, .command name choices :: slots)
      | w :: ws =>
        if choices.contains w then .ok ({ m with command := some (w, ws) }, ms.length, slots)
        else .error (refuseChoice name w choices)
    | _ => .ok (m, 0, .command name choices :: slots)

/-! ### The whole line -/

/-- The next word, if it is plain. -/
def nextPlain : List (String × Mark) → Option String
  | (w, .plain) :: _ => some w
  | _ => none

/-- Takes marked words from left to right. -/
def Grammar.takeAll (g : Grammar) (slots : List Slot) (m : Matches) (ms : List (String × Mark)) :
    Except Halt Matches :=
  match ms with
  | [] => .ok m
  | (w, .option ⟨none, _, _⟩) :: rest =>
    g.takeAll slots { m with leftOver := m.leftOver ++ [w] } rest
  | (_, .option ⟨some o, spelling, explicit⟩) :: rest =>
    match g.take (nextPlain rest) o spelling explicit with
    | .error h => .error h
    | .ok (taken, used) =>
      match m.apply taken with
      | .error h => .error h
      | .ok m' => g.takeAll slots m' (rest.drop (if used then 1 else 0))
  | (w, mark) :: rest =>
    match m.fillSlots slots ((w, mark) :: rest) with
    | .error h => .error h
    | .ok (m', 0, still) => g.takeAll still { m' with leftOver := m'.leftOver ++ [w] } rest
    | .ok (m', n + 1, still) => g.takeAll still m' (rest.drop n)
termination_by ms.length
decreasing_by all_goals simp only [List.length_cons, List.length_drop]; omega

/-- Reads the words of a command line. -/
def Grammar.parse (g : Grammar) (words : List String) : Except Halt Matches :=
  match g.markAll words with
  | .error h => .error h
  | .ok ms => g.takeAll g.slots {} ms

/-! ### Results -/

/-- Whether a flag was given. -/
def Matches.flag (m : Matches) (key : String) : Bool := m.flags.contains key

/-- The last value given to an option. -/
def Matches.value? (m : Matches) (key : String) : Option String := (m.values.lookup key).join

/-- The word in a slot. -/
def Matches.word? (m : Matches) (name : String) : Option String := m.words.lookup name

end SketchBuild.CommandLine
