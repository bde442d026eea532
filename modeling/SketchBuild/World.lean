import SketchBuild.Diagnostic.Render
import SketchBuild.Directory
import SketchBuild.Fault
import SketchBuild.Text.Lines
import SketchBuild.Tool.Basic

/-!
# The world of an action

An action sees and changes a world: the disk, the environment, the external programs and the
terminal. Everything it does that can be seen from outside is an event of the trace, in order, so
statements about calls, printed text and log records are statements about the trace. The console
takes any text, and no torn string; the error stream, to which log records go, shows escapes for the
halves of one.
-/

namespace SketchBuild

open Text (Str)

/-- The weight of a log record. -/
inductive Level
  | debug
  | info
  | warning
  | error
deriving DecidableEq, Repr

namespace Level

/-- The name of a level. -/
def name : Level → String
  | .debug => "DEBUG"
  | .info => "INFO"
  | .warning => "WARNING"
  | .error => "ERROR"

/-- Whether a record of this level is shown; a quiet console shows warnings and errors only. -/
def isShown (verbose : Bool) : Level → Bool
  | .debug | .info => verbose
  | .warning | .error => true

end Level

/-- Something that an action did. -/
inductive Event
  | printed (text : String)
  | complained (text : String)
  | logged (level : Level) (message : Str)
  | called (i : Tool.Invocation)
  | process (e : ProcessInfo.Event)

/-- Where log records go: into the trace as records, or to the console as text. -/
inductive LogTarget
  | trace
  | console (verbose : Bool)
deriving DecidableEq, Repr

/-- The variables that matter, and the home directory that the user's account has. -/
structure Environment where
  home : Option String
  configHome : Option String
  searchPath : Option String
  accountHome : Option String := none
deriving DecidableEq, Repr

/-- The files that are read as JSON. -/
inductive Document
  | settings
  | manifest
deriving DecidableEq, Repr

/-- What the stack has room for. That depends on how deep in other calls a call is made. -/
structure Room where
  /-- How deeply the value of a file may be nested. -/
  reads : Document → Nat
  /-- Where the stack runs out when a value is copied, if it does. -/
  copying? : Json → Option Json.TooDeep

/-- Room for values up to some depth that are read, and up to some depth that are copied. -/
def Room.ofDepths (read copied : Nat) : Room :=
  ⟨fun _ => read, fun v => if v.depth ≤ copied then none else some .elsewhere⟩

/-- What the host says and no rule here decides: the time of day in log lines, the seconds that a
build took, where an unexpected fault arose, and what the stack has room for. -/
structure Host where
  time : String
  seconds : String
  stack : String
  room : Room

/-- All that an action sees and changes. -/
structure World where
  disk : Disk
  env : Environment
  tools : Tool.Tools
  /-- The programs started so far. -/
  past : List Tool.Start := []
  host : Host
  /-- The colours of the terminal. -/
  palette : Palette := .ansi
  palette_eq_of : ∃ color, palette = .of color := by exact Palette.exists_ansi_eq
  log : LogTarget := .trace
  trace : List Event := []

/-- An action on the world that gives a value or stops with a fault. -/
abbrev Action := EStateM Fault World

namespace World

/-- Adds an event to the trace. -/
def emit (w : World) (e : Event) : World := { w with trace := w.trace ++ [e] }

/-- The line of a log record on the console. -/
def logLine (w : World) (level : Level) (message : Str) : String :=
  s!"{w.host.time} - root - {level.name} - {message.escaped}\n"

/-- The event of a log record, if it leaves one. -/
def record (w : World) (level : Level) (message : Str) : World :=
  match w.log with
  | .trace => w.emit (.logged level message)
  | .console verbose =>
    if level.isShown verbose then w.emit (.complained (w.logLine level message)) else w

/-- The programs started, in order. -/
def calls (w : World) : List Tool.Invocation :=
  w.trace.filterMap fun
    | .called i => some i
    | _ => none

end World

namespace Action

/-- The present world. -/
def world : Action World := get

/-- Adds an event to the trace. -/
def emit (e : Event) : Action Unit := modify (·.emit e)

/-- Prints a line. -/
def print (line : String) : Action Unit := emit (.printed (line ++ "\n"))

/-- The value of a computation whose errors are faults. -/
def ofExcept (toFault : ε → Fault) : Except ε α → Action α
  | .ok a => pure a
  | .error e => throw (toFault e)

/-- Prints a string on a line, unless it is torn. -/
def printStr (line : Str) : Action Unit := do
  print (← ofExcept .pieces line.printable)

/-- Prints a line to the error stream. -/
def complain (line : String) : Action Unit := emit (.complained (line ++ "\n"))

/-- Logs a message. -/
def log (level : Level) (message : Str) : Action Unit := modify (·.record level message)

/-- Asks the disk. -/
def ask (question : Disk → Except FileError α) : Action α := do
  ofExcept .file (question (← get).disk)

/-- Changes the disk, or leaves it as it is. -/
def change (operation : Disk → Except FileError Disk) : Action Unit := do
  let w ← get
  let d ← ofExcept .file (operation w.disk)
  set { w with disk := d }

/-- Changes the disk by an operation that may fail half way. -/
def changePartly (operation : Disk → Option FileError × Disk) : Action Unit := do
  let w ← get
  let (failure, d) := operation w.disk
  set { w with disk := d }
  match failure with
  | none => pure ()
  | some e => throw (.file e)

/-- Reads a text file, in which every end of line is a line feed. -/
def readText (p : Path) : Action (List Char) := do
  let bytes ← ask (·.readFile p)
  let chars ← ofExcept .bytes (Text.Utf8.decodeStrict bytes)
  pure (Text.unifyBreaks chars)

/-- Reads a JSON file; `unreadable` makes the fault of a text that is no JSON. -/
def readJson (document : Document) (file : Path) (unreadable : Json.SyntaxError → Fault) :
    Action Json := do
  let text ← readText file
  match Json.parse ((← world).host.room.reads document) text with
  | .ok v => return v
  | .error (.badSyntax e) => throw (unreadable e)
  | .error (.digits e) => throw (.digits e)
  | .error (.tooDeep e) => throw (.nesting e)

/-- Writes a text file. -/
def writeText (p : Path) (text : List Char) : Action Unit :=
  change (·.writeFile p (Text.Utf8.encode text))

end Action

/-- Whether a directory is there. None has a torn name. -/
def Directory.isThere : Directory → Action Bool
  | .named p => Action.ask (·.exists? p)
  | .torn _ _ => return false

end SketchBuild
