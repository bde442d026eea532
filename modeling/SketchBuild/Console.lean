import SketchBuild.World

/-!
# The console

Messages to the user. A title carries a mark and a colour; a message and a hint follow where there
are any.
-/

namespace SketchBuild

/-- Why a command ends early: with an exit code, or with a fault that nothing handles. -/
inductive Stop
  | exit (code : Nat)
  | fault (f : Fault)

/-- The exit code of a program that stops. A fault that nothing handles gives 1. -/
def Stop.status : Stop → Nat
  | .exit code => code
  | .fault _ => 1

/-- A command: an action that may end in an exit code. -/
abbrev Command := EStateM Stop World

instance : MonadLift (EStateM Fault World) (EStateM Stop World) where
  monadLift := EStateM.adaptExcept .fault

namespace Console

open Text (Str)

/-- Ends the command with an exit code. -/
def exit (code : Nat) : Command α := throw (.exit code)

/-- Prints an empty line. -/
def gap : Action Unit := Action.print ""

/-- Switches colours on or off. -/
def setColor (enabled : Bool) : Action Unit :=
  modify fun w => { w with
    palette := w.palette.switch enabled
    palette_eq_of := ⟨enabled, w.palette.switch_eq_of enabled⟩ }

/-- Sends log records to the console. -/
def setLogging (verbose : Bool) : Action Unit := modify fun w => { w with log := .console verbose }

/-- The colours in use. -/
def palette : Action Palette := return (← Action.world).palette

/-- Prints an error with its details and what helps against it. -/
def error (title : String) (message : Str) (hint : Option String) : Action Unit := do
  let c ← palette
  gap
  Action.print s!"{c.red}✗ {title}{c.reset}"
  gap
  if !message.isEmpty then Action.printStr message
  match hint with
  | some h => if !h.isEmpty then Action.print s!"  {c.cyan}Hint:{c.reset} {h}"
  | none => pure ()
  gap

/-- Prints a success. -/
def success (message : Str) : Action Unit := do
  let c ← palette
  gap
  Action.printStr (s!"{c.green}✓ " ++ message ++ c.reset)

/-- Prints a warning. -/
def warning (message : String) : Action Unit := do
  let c ← palette
  Action.print s!"{c.yellow}⚠ {message}{c.reset}"

/-- Prints warnings one by one. -/
def warnings (messages : List String) : Action Unit := messages.forM warning

/-- Shows a diagnostic on the error stream. -/
def traceback (t : Diagnostic.Traceback) : Action Unit := do
  Action.complain (t.render (← palette))

/-- Ends an interrupted command. -/
def interrupted : Command α := do
  let c ← palette
  gap
  Action.print s!"{c.yellow}✗ Interrupted{c.reset}"
  exit 130

/-- Ends a command after a fault that was not foreseen, given its name and wording. -/
def unexpected (name : String) (message : Str) (verbose : Bool) : Command α := do
  error "Unexpected error" (s!"{name}: " ++ message) none
  if verbose then
    Action.print "Traceback:"
    Action.print (← Action.world).host.stack
  exit 1

/-- Ends the command unless a path leads to a directory. -/
def requireDirectory (dir : Path) : Command Unit := do
  let c ← palette
  if !(← Action.ask (·.exists? dir)) then
    Action.print s!"{c.red}✗ Error: Path does not exist: {dir}{c.reset}"
    exit 2
  if !(← Action.ask (·.isDirectory? dir)) then
    Action.print s!"{c.red}✗ Error: Path is not a directory: {dir}{c.reset}"
    exit 2

end Console

end SketchBuild
