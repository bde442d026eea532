import SketchBuild.Settings.Basic
import SketchBuild.World

/-!
# Stored settings

Settings live in a file below the user's configuration directory. A missing file stands for the
defaults.
-/

namespace SketchBuild.Settings

/-- The user's home directory, without trailing slashes: the one that is set, else that of the
account. A name that starts with a tilde stands for the home of somebody and is not looked up. -/
def home? (env : Environment) : Option Path :=
  match env.home.or env.accountHome with
  | none => none
  | some text =>
    match Text.trimRightBy (· == '/') text.toList with
    | [] => some (.ofString "/")
    | '~' :: _ => none
    | cs => some (.ofString (String.ofList cs))

/-- The directory that holds the user's settings of all programs, unless the home directory is
needed and cannot be told. -/
def configDir? (env : Environment) : Option Path :=
  match env.configHome with
  | some dir => if dir.isEmpty then (home? env).map (·.child ".config") else some (.ofString dir)
  | none => (home? env).map (·.child ".config")

/-- The file that holds the settings. -/
def file : Action Path := do
  match configDir? (← Action.world).env with
  | some dir => return (dir.child "godotino").child "config.json"
  | none => throw .noHome

/-- The file to use: the given one, or the user's. -/
def fileOr : Option Path → Action Path
  | some path => return path
  | none => file

/-- Loads settings. -/
def load (given : Option Path) : Action Settings := do
  let path ← fileOr given
  if !(← Action.ask (·.exists? path)) then return {}
  match ← Action.readJson .settings path fun e => .settings (.unreadable path e) with
  | .obj members => return ofMembers members
  | _ => throw (.settings (.notObject path))

/-- Saves settings and makes the directories above the file. The settings are copied before they are
written. Gives the path of the file. -/
def save (s : Settings) (given : Option Path) : Action Path := do
  let path ← fileOr given
  Action.changePartly (·.makePath path.parent)
  match (← Action.world).host.room.copying? s.toJson with
  | some e => throw (.nesting e)
  | none =>
    Action.writeText path s.fileText
    return path

end SketchBuild.Settings
