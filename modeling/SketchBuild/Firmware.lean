import SketchBuild.Diagnostic.Normalize
import SketchBuild.Sketch.Directory
import SketchBuild.Tool.Run

/-!
# Firmware

The board tool compiles a checked sketch directory. What it makes goes to a directory of its own, so
that the sketch directory holds only translator output and the entry point.
-/

namespace SketchBuild

/-- The compiler: the program that a setting names, and whether it works verbosely. -/
structure Compiler where
  binary : Json
  verbose : Bool

namespace Compiler

/-- The program to use where none is set. -/
def defaultBinary : Json := .text "arduino-cli"

/-- The compiler that a setting names. -/
def ofSetting (binary : Json) (verbose : Bool) : Compiler :=
  ⟨binary.orElse defaultBinary, verbose⟩

/-- The suffixes of firmware, the preferred ones first. -/
def firmwareSuffixes : List String := [".hex", ".bin", ".uf2"]

/-- The first entry of a directory with one of some suffixes, by the order of the suffixes. -/
def firstWith (dir : Path) : List String → Action (Option Path)
  | [] => return none
  | suffix :: rest => do
    match ← Action.ask (·.list dir suffix) with
    | p :: _ => return some p
    | [] => firstWith dir rest

/-- The firmware in a directory. -/
def findFirmware (dir : Path) : Action (Option Path) := firstWith dir firmwareSuffixes

/-- The command that compiles a sketch. -/
def command (c : Compiler) (sketch : Sketch.Checked) (fqbn : String) (buildPath : Path) :
    List Json :=
  [c.binary, .text "compile", .text "--fqbn", .text fqbn, .text "--build-path",
    .text buildPath.toString, .text "--warnings", .text "all"] ++
    (if c.verbose then [.text "--verbose"] else []) ++ [.text sketch.dir.toString]

/-- Runs the compiler in the sketch directory. -/
def run (c : Compiler) (sketch : Sketch.Checked) (fqbn : String) (buildPath : Path) :
    Action Tool.Output :=
  try
    Tool.run ((c.command sketch fqbn buildPath).map Json.toStr) (some sketch.dir) true
  catch
    | .file ⟨.notFound, _⟩ => throw (.build (.tool (.compilerNotFound c.binary.toStr)))
    | f => throw f

/-- Compiles a sketch into a directory and gives the firmware found there. -/
def compile (c : Compiler) (sketch : Sketch.Checked) (fqbn : String) (buildPath : Path) :
    Action (Option Path) := do
  Action.changePartly (·.makePath buildPath)
  let count := (← Sketch.outputs sketch.dir).length
  Action.log .info s!"Compiling sketch {sketch.dir.name} ({count} .cpp files) for {fqbn}"
  let o ← c.run sketch fqbn buildPath
  if !o.success then
    let traceback ← Action.ofExcept .digits (Diagnostic.normalize .compile none o.stdout)
    throw (.build (.compilerFailed traceback none))
  if c.verbose && !o.stdout.isEmpty then Action.print o.stdout
  findFirmware buildPath

end Compiler

end SketchBuild
