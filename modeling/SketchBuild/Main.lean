import SketchBuild.CommandLine.Run

/-!
# The program

Runs a command line on a file tree. The tree is read from standard input as a JSON object that gives
each file's path its text; a path that ends in a slash is a directory. The working directory is the
root, and no external program can be started. What the command prints goes to the two output
streams, and its exit code is that of the program.
-/

namespace SketchBuild.Main

/-- Puts a file or directory of the given object on the disk. What cannot be made is left out. -/
def place (d : Disk) (name : String) (content : Json) : Disk :=
  let p := Path.ofString name
  if Text.endsWith name "/" then (d.makePath p).2
  else
    let d := (d.makePath p.parent).2
    match d.writeFile p (Text.Utf8.encode content.display.toList) with
    | .ok d' => d'
    | .error _ => d

/-- The disk that a text describes. -/
def diskOf (text : String) : Disk :=
  let root : Disk := ⟨.empty, ⟨[], 0⟩, rfl⟩
  match Json.parse text.length text.toList with
  | .ok (.obj files) => files.foldl (fun d (name, content) => place d name.shown content) root
  | _ => root

/-- The exit code of a command that ended. -/
def exitCode : EStateM.Result Stop World Unit → UInt32
  | .ok _ _ => 0
  | .error s _ => UInt32.ofNat s.status

/-- What is still to be said about a command that ended. -/
def lastWords : EStateM.Result Stop World Unit → String
  | .error (.fault f) _ => s!"{f.name}: {f.message.escaped}\n"
  | _ => ""

/-- The trace of a command that ended. -/
def traceOf : EStateM.Result Stop World Unit → List Event
  | .ok _ w => w.trace
  | .error _ w => w.trace

/-- All lines of a stream. -/
partial def readAll (stream : IO.FS.Stream) (text : String) : IO String := do
  let line ← stream.getLine
  if line.isEmpty then return text else readAll stream (text ++ line)

end SketchBuild.Main

open SketchBuild in
def main (args : List String) : IO UInt32 := do
  let world : World :=
    { disk := Main.diskOf (← Main.readAll (← IO.getStdin) "")
      env := { home := ← IO.getEnv "HOME", configHome := ← IO.getEnv "XDG_CONFIG_HOME"
               searchPath := ← IO.getEnv "PATH" }
      tools := fun _ _ d => ⟨d.tree, .error .notFound⟩
      host := { time := "-", seconds := "0.00", stack := "", room := .ofDepths 990 491 } }
  let result := (CommandLine.run args).run world
  for e in Main.traceOf result do
    match e with
    | .printed s => IO.print s
    | .complained s => IO.eprint s
    | _ => pure ()
  IO.eprint (Main.lastWords result)
  return Main.exitCode result
