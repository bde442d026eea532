import SketchBuild.Check
import SketchBuild.CommandLine.Request
import SketchBuild.Console
import SketchBuild.Manifest.Load
import SketchBuild.Settings.Store
import SketchBuild.Upload.Run

/-!
# Carrying out requests

Each command prints what it does and ends with an exit code. Failures that a command foresees are
shown with a title and a hint; others either become an unexpected error or, where nothing handles
them, stop the program.
-/

namespace SketchBuild.CommandLine

/-- The version of the program. -/
def programVersion : String := "0.1.0"

/-! ### What the commands share -/

/-- Loads the user's settings, or ends the command. -/
def loadSettings : Command Settings :=
  try
    (Settings.load none : Command Settings)
  catch
    | .fault (.settings e) => do
      Console.error "Invalid configuration" e.message none
      Console.exit 1
    | s => throw s

/-- Finds the project of a directory, or ends the command. -/
def loadProject (dir : Path) : Command (Path × Manifest) :=
  try
    (Manifest.find dir : Command (Path × Manifest))
  catch
    | .fault (.manifest e) => do
      Console.error "Error: Manifest not found" e.message none
      Console.exit 1
    | s => throw s

/-- Ends a command that stopped: an interrupt and any other fault have their own endings. -/
def finish (verbose : Bool) : Stop → Command Unit
  | .exit code => Console.exit code
  | .fault .interrupted => Console.interrupted
  | .fault f => Console.unexpected f.name f.message verbose

/-! ### The commands -/

/-- The build of a project that a request asks for. -/
def BuildRequest.forProject (r : BuildRequest) (projectDir : Path) (manifest : Manifest) :
    Build.Request :=
  { projectDir, manifest, board := r.board, outputDir := r.outputDir
    sourceMap := r.sourceMap, compile := r.compile }

/-- Reports what a build has made, and ends the command. -/
def reportBuilt (result : Build.Result) : Command Unit := do
  Console.warnings result.warnings
  Console.success "Build finished!"
  Console.gap
  Action.print s!"Sketch: {result.sketchDir}"
  match result.firmware with
  | some p => Action.print s!"Firmware: {p}"
  | none => pure ()
  Action.print s!"Build time: {(← Action.world).host.seconds}s"
  Console.exit 0

/-- Reports why a build failed, and ends the command. -/
def reportFailed (e : Build.Error) : Command Unit := do
  match e with
  | .translatorFailed _ t | .compilerFailed t _ => Console.traceback t
  | _ => pure ()
  Console.error "Build failed!" e.message e.hint
  Console.exit 1

/-- Builds a project and reports what was made. -/
def buildProject (r : BuildRequest) (dir : Path) (settings : Settings) (verbose : Bool) :
    Command Unit := do
  let (projectDir, manifest) ← loadProject dir
  let builder := Build.Builder.ofSettings settings verbose
  reportBuilt (← builder.build (r.forProject projectDir manifest))

/-- Ends a build command that stopped. -/
def endBuild (verbose : Bool) : Stop → Command Unit
  | .fault (.build e) => reportFailed e
  | s => finish verbose s

/-- The build command. -/
def build (r : BuildRequest) (dir : Path) (settings : Settings) (verbose : Bool) :
    Command Unit := do
  Action.print s!"godotino v{programVersion}"
  Console.gap
  try
    buildProject r dir settings verbose
  catch
    s => endBuild verbose s

/-- Prints lines in a colour, each behind a margin. -/
def printMarked (color reset : String) (lines : List String) : Action Unit :=
  lines.forM fun l => Action.print s!"      {color}{l}{reset}"

/-- Shows the verdict on one source. -/
def showVerdict (v : Translator.Verdict) : Action Unit := do
  let c ← Console.palette
  let mark := if v.success && v.errors.isEmpty then c.green ++ "✓" else c.red ++ "✗"
  Action.print s!"  {mark} {v.source.name}{c.reset}"
  printMarked c.red c.reset v.errors
  printMarked c.yellow c.reset v.warnings

/-- Reports the verdicts of a check, and ends the command. -/
def reportChecked (report : Check.Report) : Command Unit := do
  Action.printStr (s!"Checking {report.files.length} file(s) [board: " ++ report.board ++ "]")
  (report.files.forM showVerdict : Action Unit)
  if !report.success then
    let count := report.errors.length
    Console.error (if count = 0 then "Check failed" else s!"{count} error(s) found") "" none
    Console.exit 1
  else
    Console.success s!"No errors ({report.warnings.length} warning(s))"
    Console.exit 0

/-- Checks a project and reports the verdicts. -/
def checkProject (r : CheckRequest) (dir : Path) (settings : Settings) (verbose : Bool) :
    Command Unit := do
  let (projectDir, manifest) ← loadProject dir
  reportChecked (← Check.run projectDir manifest settings r.board verbose)

/-- Ends a check command that stopped. -/
def endCheck (verbose : Bool) : Stop → Command Unit
  | .fault (.build e) => do
    Console.error "Check failed!" e.message e.hint
    Console.exit 1
  | s => finish verbose s

/-- The check command. -/
def check (r : CheckRequest) (dir : Path) (settings : Settings) (verbose : Bool) :
    Command Unit := do
  try
    checkProject r dir settings verbose
  catch
    s => endCheck verbose s

/-- Uploads a project's firmware and reports the result. -/
def uploadProject (r : UploadRequest) (dir : Path) (settings : Settings) (verbose : Bool) :
    Command Unit := do
  let (projectDir, manifest) ← loadProject dir
  let result ← (Upload.Uploader.mk settings verbose).deploy
    { projectDir, manifest, port := r.port, board := r.board, buildDir := r.buildDir }
  if result.success then
    Console.success result.message
    Console.exit 0
  match result.traceback with
  | some t => Console.traceback t
  | none => pure ()
  Console.error "Upload failed!" result.message result.hint
  Console.exit 1

/-- The upload command. -/
def upload (r : UploadRequest) (dir : Path) (settings : Settings) (verbose : Bool) :
    Command Unit := do
  try
    uploadProject r dir settings verbose
  catch s => finish verbose s

/-- The row of a board in the list. -/
def boardRow (c : Palette) (b : Board) : String :=
  s!"  {c.cyan}{Text.padRight 12 b.id}{c.reset}  {Text.padRight 34 b.name}" ++
    s!"  {Text.padLeft 6 (toString b.flash)}K  {Text.padLeft 5 (toString b.ram)}K" ++
    s!"  {c.dim}{b.fqbn}{c.reset}"

/-- Lists the supported boards. -/
def listBoards : Action Unit := do
  let c ← Console.palette
  Action.print "Supported Boards"
  Console.gap
  Action.print ("  " ++ Text.padRight 12 "ID" ++ "  " ++ Text.padRight 34 "NAME" ++ "  " ++
    Text.padLeft 7 "FLASH" ++ "  " ++ Text.padLeft 6 "RAM" ++ "  FQBN")
  Action.print ("  " ++ String.ofList (List.replicate 90 '─'))
  Board.catalog.forM fun b => Action.print (boardRow c b)
  Console.gap

/-- Detects a connected board. -/
def detectBoard (settings : Settings) : Command Unit := do
  Action.print "Scanning serial ports..."
  let port ←
    try
      ((Upload.Uploader.mk settings false).detect : Command (Option String))
    catch
      | .fault (.upload e) => do
        Console.error "Detection failed" e.message (some e.hint)
        Console.exit 1
      | .fault (.file ⟨.notFound, _⟩) => do
        Console.error "Detection failed" (settings.arduinoCli.toStr ++ " not found")
          (some "godotino config set arduino_cli /path/to/arduino-cli")
        Console.exit 1
      | s => throw s
  match port with
  | none => do
    Console.error "No board detected" "" (some "connect the board and try again")
    Console.exit 1
  | some p => Console.success s!"Found board on {p}"

/-- Removes what was built. -/
def clean (dir : Path) : Command Unit := do
  let (root, manifest) ← loadProject dir
  let outputDir := manifest.build.outputDir
  let target ← Build.joinSetting root outputDir
  if !(← target.isThere) then
    Action.printStr (outputDir.toStr ++ " does not exist - nothing to clean")
    return
  let path ← Action.ofExcept .pieces target.path
  Action.changePartly (·.removeTree path)
  Console.success s!"Removed {path}"

/-- The row of a setting in the list. -/
def settingRow (c : Palette) (key : String) (value : Json) (comment : String) : Text.Str :=
  s!"{Text.padRight 14 key} = " ++ value.toStr.padRight 20 ++ s!" {c.dim}# {comment}{c.reset}"

/-- Lists all settings. -/
def listSettings (settings : Settings) : Action Unit := do
  let c ← Console.palette
  Action.print s!"# {← Settings.file}"
  settings.entries.forM fun (key, value, comment) =>
    Action.printStr (settingRow c key value comment)

/-- Shows or changes settings. -/
def configure (action : ConfigAction) (key value : String) (settings : Settings) :
    Action Unit := do
  match action with
  | .list => listSettings settings
  | .get => Action.printStr (← Action.ofExcept .settings (settings.lookup key)).toStr
  | .set =>
    let changed ← Action.ofExcept .settings (settings.set key value)
    let path ← changed.save none
    let now ← Action.ofExcept .settings (changed.lookup key)
    Console.success (s!"{key} = " ++ now.toStr ++ s!"  ({path})")

/-- The config command. -/
def config (action : ConfigAction) (key value : String) (settings : Settings) : Command Unit :=
  try
    (configure action key value settings : Command Unit)
  catch
    | .fault (.settings e) => do
      Console.error "Config error" e.message none
      Console.exit 1
    | s => throw s

/-- Tells the version of the translator, if it is there. -/
def translatorVersion (settings : Settings) : Action String :=
  try
    (Translator.ofSetting settings.coreBinary false).version
  catch
    | .build (.tool _) => return "(not detected)"
    | f => throw f

/-- The version command. -/
def version (settings : Settings) : Action Unit := do
  let core ← translatorVersion settings
  Action.print s!"cli   {programVersion}"
  Action.print s!"core  {core}"

/-! ### The program -/

/-- The manual of the program or of a command. -/
def manualOf : Option CommandName → Manual
  | none => .program
  | some c => c.manual

/-- The name under which the program or a command reports misuse. -/
def callName : Option CommandName → String
  | none => "godotino"
  | some c => "godotino " ++ c.word

/-- Answers a command line that is not carried out. -/
def reject : Rejection → Command Unit
  | .help who => do
    Action.emit (.printed (manualOf who).helpText)
    Console.exit 0
  | .version => do
    Action.print s!"godotino {programVersion}"
    Console.exit 0
  | .misuse who message => do
    Action.emit (.complained (manualOf who).usageText)
    Action.complain s!"{callName who}: error: {message}"
    Console.exit 2

/-- Whether a request leaves out the key that it needs. -/
def Request.lacksKey : Request → Option ConfigAction
  | .config .list _ _ => none
  | .config action key _ => if (key.getD "").isEmpty then some action else none
  | _ => none

/-- Carries out a request. `here` is the working directory. -/
def Request.perform (r : Request) (here : Path) (settings : Settings) (verbose : Bool) :
    Command Unit :=
  match r with
  | .nothing => return
  | .build b => CommandLine.build b (b.projectDir.getD here) settings verbose
  | .check c => CommandLine.check c (c.projectDir.getD here) settings verbose
  | .upload u => CommandLine.upload u (u.projectDir.getD here) settings verbose
  | .boards true => detectBoard settings
  | .boards false => listBoards
  | .clean dir => CommandLine.clean (dir.getD here)
  | .config action key value => CommandLine.config action (key.getD "") (value.getD "") settings
  | .version => CommandLine.version settings

/-- Loads the settings, sets up the console, and carries out a request. -/
def Request.run (r : Request) (here : Path) : Command Unit := do
  let settings ← loadSettings
  Console.setColor settings.color.truthy
  let verbose := r.verbose || settings.verbose.truthy
  Console.setLogging verbose
  match r.projectDir with
  | some dir => Console.requireDirectory (dir.getD here)
  | none => pure ()
  match r.lacksKey with
  | some action => reject (.misuse none s!"config {action.word} requires a key")
  | none => r.perform here settings verbose

/-- Runs the program on the words of a command line. -/
def run (args : List String) : Command Unit := do
  let here ← Action.ask (·.workingDirectory)
  match Request.parse args with
  | .error e => reject e
  | .ok .nothing => reject (.help none)
  | .ok r => r.run here

end SketchBuild.CommandLine
