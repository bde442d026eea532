import SketchBuild.Build.Run
import SketchBuild.Upload.Error

/-!
# Uploading firmware

Firmware goes to a board on a serial port. If no port is given, the board tool lists what is
connected, and the first thing that looks like a serial port is used.
-/

namespace SketchBuild.Upload

open Text (Str)

/-- What is to be uploaded, and where to. -/
structure Options where
  projectDir : Path
  manifest : Manifest
  port : Option String := none
  board : Option String := none
  buildDir : Option Path := none

/-- How an upload ended. -/
structure Result where
  success : Bool
  message : Str
  port : Option String := none
  hint : Option String := none
  traceback : Option Diagnostic.Traceback := none

/-- The uploader: the settings and whether it works verbosely. -/
structure Uploader where
  settings : Settings
  verbose : Bool

namespace Uploader

/-- The board tool. -/
def binary (u : Uploader) : Json := u.settings.arduinoCli.orElse Compiler.defaultBinary

/-! ### Ports -/

/-- What the names of serial ports start with. -/
def portMarks : List String := ["/dev/", "COM"]

/-- The port that a line of the listing names. -/
def portIn? (line : List Char) : Option String :=
  match Text.words line with
  | [] => none
  | w :: _ =>
    let word := String.ofList w
    if portMarks.any (Text.startsWith word ·) then some word else none

/-- The first port in a listing. -/
def firstPort? (listing : String) : Option String := (Text.lines listing.toList).findSome? portIn?

/-- Asks the board tool for the first serial port. -/
def detect (u : Uploader) : Action (Option String) := do
  let o ← Tool.run [u.binary.toStr, "board", "list"] none false
  if !o.success then throw (.upload (.listingFailed (Text.strip o.stderr)))
  return firstPort? o.stdout

/-- The port to use: the given one, or one that is detected. -/
def portFor (u : Uploader) (given : Option String) : Action String := do
  let port := given.getD ""
  if !port.isEmpty then return port
  if !u.settings.autoDetect.truthy then throw (.upload .noPort)
  Action.print "Auto-detecting board on serial ports..."
  let some port ← u.detect | throw (.upload .noBoardDetected)
  Action.print s!"Found board on {port}"
  return port

/-! ### Uploading -/

/-- The board that a value names. Only a string can; what does not count as true names the empty
board. -/
def boardOf? (v : Json) : Action (Option Board) :=
  match v with
  | .str s => return Board.ofStr? s
  | v => if v.truthy then throw (.kind (.board v.kind)) else return Board.find? ""

/-- The directory that holds the firmware. -/
def buildDir (o : Options) : Action Directory := do
  match o.buildDir with
  | some dir => return .named dir
  | none =>
    let root ← Build.joinSetting o.projectDir o.manifest.build.outputDir
    return root.child Build.cacheName

/-- The command that uploads a directory. -/
def command (u : Uploader) (fqbn port : String) (dir : Directory) : List Json :=
  [u.binary, .text "upload", .text "--fqbn", .text fqbn, .text "--port", .text port,
    .text "--input-dir", .str dir.spelling] ++ if u.verbose then [.text "--verbose"] else []

/-- What an upload comes to, by what the board tool has left. -/
def conclude (port : String) (output : Tool.Output) : Action Result := do
  if !output.success then
    let traceback ← Action.ofExcept .digits
      (Diagnostic.normalize .upload (some port) output.stdout)
    return { success := false, message := "upload failed", port := some port
             traceback := some traceback }
  return { success := true, message := s!"Firmware uploaded to {port}", port := some port }

/-- Sends the firmware in a directory to a board on a port. -/
def send (u : Uploader) (fqbn port : String) (dir : Directory) : Action Result := do
  let command := u.command fqbn port dir
  if u.verbose then Action.printStr ("Running: " ++ (← Tool.spell command))
  Action.log .info ("Uploading " ++ dir.spelling ++ s!" to {port} [{fqbn}]")
  let output ← Tool.run (command.map Json.toStr) none true
  conclude port output

/-- Uploads, and stops with a fault if there is no port, no board or no tool. -/
def upload (u : Uploader) (o : Options) : Action Result := do
  let board := Build.boardOf o.board o.manifest u.settings
  let dir ← buildDir o
  let port ← u.portFor o.port
  let some found ← boardOf? board | throw (.upload (.unknownBoard board port))
  if !(← dir.isThere) then
    Action.log .warning ("Build directory " ++ dir.spelling ++ " does not exist")
  u.send found.fqbn port dir

/-- Uploads, and reports what is missing as the result. -/
def deploy (u : Uploader) (o : Options) : Action Result :=
  try
    u.upload o
  catch
    | .upload e =>
      return { success := false, message := e.message, port := e.port, hint := some e.hint }
    | .file ⟨.notFound, _⟩ =>
      return { success := false, message := u.binary.toStr ++ " not found"
               hint := some Build.installHint }
    | f => throw f

end Uploader

end SketchBuild.Upload
