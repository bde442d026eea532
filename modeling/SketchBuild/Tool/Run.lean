import SketchBuild.World

/-!
# Running tools

A tool is found on the search path and run to its end. If waiting for it is interrupted, its whole
process tree is torn down before the interrupt goes on.
-/

namespace SketchBuild.Tool

open Text (Str)

/-! ### Finding a tool -/

/-- A name inside a directory of the search path, as it is spelled. -/
def candidate (dir name : String) : String :=
  if dir.isEmpty then name
  else if Text.endsWith dir "/" then dir ++ name
  else dir ++ "/" ++ name

/-- The directories of a search path. An empty one means the working directory. -/
def searchDirs (path : String) : List String :=
  if path.isEmpty then []
  else (Text.fields (· == ':') path.toList).map String.ofList

/-- The search path of an environment without one. -/
def systemPath : String := "/bin:/usr/bin"

/-- The spelling under which a program is found. A name with a slash is not searched for. -/
def search? (d : Disk) (path name : String) : Option String :=
  if name.toList.contains '/' then if d.isExecutable name then some name else none
  else ((searchDirs path).map (candidate · name)).find? d.isExecutable

/-- The path of an installed program. -/
def find? (d : Disk) (env : Environment) (name : String) : Option Path :=
  if name.isEmpty then none
  else (search? d (env.searchPath.getD systemPath) name).map Path.ofString

/-- Looks for the program that a setting names. -/
def findSetting (setting : Json) : Action (Option Path) := do
  if !setting.truthy then return none
  match setting with
  | .text name =>
    let w ← get
    return find? w.disk w.env name
  | .str (.torn _ _) => return none
  | v => throw (.kind (.program v.kind))

/-! ### Commands -/

/-- The first word that is not a string, with its place. -/
def badWord? : (index : Nat) → List Json → Option KindFault
  | _, [] => none
  | i, .str _ :: ws => badWord? (i + 1) ws
  | i, w :: _ => some (.word i w.kind)

/-- A command as it is shown: its words with blanks between them. -/
def spell (command : List Json) : Action Str :=
  match badWord? 0 command with
  | some e => throw (.kind e)
  | none => pure (Str.intercalate " " (command.map Json.toStr))

/-! ### Running -/

/-- Notes a step of a teardown. A process that had to be killed is logged. -/
def noteTeardown (e : ProcessInfo.Event) : Action Unit := do
  Action.emit (.process e)
  match e with
  | .killed pid true => Action.log .warning s!"Force killed stubborn process {pid}"
  | _ => pure ()

/-- Tears down a process tree. Gives the number of processes that were there. -/
def teardown (table : ProcessTable) (pid seconds : Int) : Action Nat := do
  let (events, count) := ProcessInfo.terminate table pid seconds
  events.forM noteTeardown
  return count

/-- Starts a program: notes the call and gives what becomes of it. -/
def start (i : Invocation) : Action Run := do
  Action.emit (.called i)
  if i.argv.isEmpty then throw .noProgram
  let w ← get
  let response := w.tools (w.past.map (·.invocation)) i w.disk
  set { w with past := w.past ++ [Start.mk i w.disk], disk := w.disk.withTree response.tree }
  match response.outcome with
  | .error r => throw (.file ⟨r, .text (i.argv.headD "")⟩)
  | .ok run => return run

/-- Runs a program to its end. A command with a torn word is not started. -/
def run (command : List Str) (cwd : Option Path) (merge : Bool) : Action Output := do
  Action.log .debug ("Running: " ++ Str.intercalate " " command)
  let argv ← Action.ofExcept .pieces (Str.words command)
  let program := argv.headD ""
  let run ← start { argv, cwd := cwd.map Path.toString, merge }
  match run.ending with
  | .interrupted =>
    Action.log .warning s!"Interrupted, terminating {program} (pid {run.pid})"
    let _ ← teardown run.processes run.pid ProcessInfo.defaultWait
    throw .interrupted
  | .exited code stdout stderr =>
    Action.log .debug s!"{(Path.ofString program).name} exited with code {code}"
    return .ofStreams merge code stdout stderr

end SketchBuild.Tool
