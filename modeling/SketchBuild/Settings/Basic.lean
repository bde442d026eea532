import SketchBuild.Json.Display
import SketchBuild.Json.Printer
import SketchBuild.Json.Reader
import SketchBuild.Path
import SketchBuild.Text.Case

/-!
# User settings

Seven settings, each with a key, a default and a comment. A settings file may give any of them any
JSON value. A setting changed by a word takes a value of the kind it has at that moment: a switch
stays a switch and a whole number a whole number, everything else becomes a text.
-/

namespace SketchBuild

/-- The keys of the settings. -/
inductive Settings.Key
  | coreBinary
  | arduinoCli
  | defaultBoard
  | defaultBaud
  | color
  | verbose
  | autoDetect
deriving DecidableEq, Repr

/-- The value of each setting. -/
structure Settings where
  coreBinary : Json := .text ""
  arduinoCli : Json := .text "arduino-cli"
  defaultBoard : Json := .text "uno"
  defaultBaud : Json := .int 9600
  color : Json := .bool true
  verbose : Json := .bool false
  autoDetect : Json := .bool true

namespace Settings

namespace Key

/-- All keys, in the order in which they are listed and saved. -/
def all : List Key :=
  [.coreBinary, .arduinoCli, .defaultBoard, .defaultBaud, .color, .verbose, .autoDetect]

@[simp] theorem mem_all (k : Key) : k ∈ all := by
  cases k <;> decide

/-- The name of a key in a file. -/
def name : Key → String
  | .coreBinary => "core_binary"
  | .arduinoCli => "arduino_cli"
  | .defaultBoard => "default_board"
  | .defaultBaud => "default_baud"
  | .color => "color"
  | .verbose => "verbose"
  | .autoDetect => "auto_detect"

/-- What a setting is for. -/
def comment : Key → String
  | .coreBinary => "path to godotino-core binary"
  | .arduinoCli => "path to arduino-cli binary"
  | .defaultBoard => "default target board"
  | .defaultBaud => "default serial baud rate"
  | .color => "enable colored output"
  | .verbose => "verbose command output"
  | .autoDetect => "auto-detect connected boards"

/-- The spelling under which a word is looked up: trimmed, in lower case, with underscores for
hyphens. -/
def normalize (word : String) : String :=
  String.ofList ((Text.lower (Text.trim word.toList)).map fun c => if c = '-' then '_' else c)

/-- The key that a word names. -/
def ofWord? (word : String) : Option Key := all.find? fun k => k.name == normalize word

end Key

/-- Why settings cannot be read or changed. -/
inductive Error
  | unreadable (file : Path) (e : Json.SyntaxError)
  | notObject (file : Path)
  | unknownKey (word : String)
  | notSwitch (value word : String)
  | notNumber (value word : String)

/-- The wording of an error. -/
def Error.message : Error → String
  | .unreadable file e => s!"Failed to parse config {file}: {e.message}"
  | .notObject file => s!"Config {file} must contain a JSON object"
  | .unknownKey word => s!"Unknown config key {Text.quote word}"
  | .notSwitch value word =>
    s!"Invalid bool value {Text.quote value} for key {Text.quote word}"
  | .notNumber value word =>
    s!"Invalid int value {Text.quote value} for key {Text.quote word}"

/-! ### Reading and changing -/

/-- The value of a setting. -/
def get (s : Settings) : Key → Json
  | .coreBinary => s.coreBinary
  | .arduinoCli => s.arduinoCli
  | .defaultBoard => s.defaultBoard
  | .defaultBaud => s.defaultBaud
  | .color => s.color
  | .verbose => s.verbose
  | .autoDetect => s.autoDetect

/-- Gives a setting a value. -/
def put (s : Settings) (k : Key) (v : Json) : Settings :=
  match k with
  | .coreBinary => { s with coreBinary := v }
  | .arduinoCli => { s with arduinoCli := v }
  | .defaultBoard => { s with defaultBoard := v }
  | .defaultBaud => { s with defaultBaud := v }
  | .color => { s with color := v }
  | .verbose => { s with verbose := v }
  | .autoDetect => { s with autoDetect := v }

theorem get_put (s : Settings) (k k' : Key) (v : Json) :
    (s.put k v).get k' = if k' = k then v else s.get k' := by
  cases k <;> cases k' <;> rfl

theorem ext_get {s s' : Settings} (h : ∀ k, s.get k = s'.get k) : s = s' := by
  cases s
  cases s'
  simp only [mk.injEq]
  exact ⟨h .coreBinary, h .arduinoCli, h .defaultBoard, h .defaultBaud, h .color, h .verbose,
    h .autoDetect⟩

/-- The value of the setting that a word names. -/
def lookup (s : Settings) (word : String) : Except Error Json :=
  match Key.ofWord? word with
  | none => .error (.unknownKey word)
  | some k => .ok (s.get k)

/-- The switch that a word stands for. -/
def switch? (word : String) : Option Bool :=
  let w := String.ofList (Text.lower (Text.trim word.toList))
  if w ∈ ["1", "true", "yes", "on"] then some true
  else if w ∈ ["0", "false", "no", "off"] then some false
  else none

/-- The value that a word gives to a setting that now has the value `current`; `key` is the word
for the key, for the message. -/
def convert (current : Json) (key value : String) : Except Error Json :=
  match current with
  | .bool _ =>
    match switch? value with
    | some b => .ok (.bool b)
    | none => .error (.notSwitch value key)
  | .int _ =>
    match Text.readInt? value.toList with
    | some n => .ok (.int n)
    | none => .error (.notNumber value key)
  | _ => .ok (.text value)

/-- Changes the setting that the word `key` names. -/
def set (s : Settings) (key value : String) : Except Error Settings :=
  match Key.ofWord? key with
  | none => .error (.unknownKey key)
  | some k =>
    match convert (s.get k) key value with
    | .error e => .error e
    | .ok v => .ok (s.put k v)

/-- Key, value and comment of every setting. -/
def entries (s : Settings) : List (String × Json × String) :=
  Key.all.map fun k => (k.name, s.get k, k.comment)

/-! ### Files -/

/-- Settings from the members of an object. Other members are ignored, missing ones have their
defaults. -/
def ofMembers (members : List (Text.Str × Json)) : Settings :=
  Key.all.foldl (fun s k => match Json.member? k.name members with
    | some v => s.put k v
    | none => s) {}

/-- The object that holds all settings. -/
def toJson (s : Settings) : Json := .object (Key.all.map fun k => (k.name, s.get k))

/-- The text of a settings file. -/
def fileText (s : Settings) : List Char := s.toJson.write 0 ++ ['\n']

end Settings

end SketchBuild
