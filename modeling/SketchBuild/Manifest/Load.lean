import SketchBuild.Manifest.Basic
import SketchBuild.World

/-!
# Finding and loading manifests

The manifest of a project is the nearest one above the start: the first directory on the way to the
root that holds a manifest file is used, whether or not that file can be read.
-/

namespace SketchBuild.Manifest

/-- Loads the manifest in a directory. -/
def load (dir : Path) : Action Manifest := do
  let file := dir.child fileName
  if !(← Action.ask (·.exists? file)) then throw (.manifest (.missing dir))
  let v ← Action.readJson .manifest file fun e => .manifest (.unreadable file e)
  Action.ofExcept .manifest (ofJson v)

/-- A directory and those above it, the nearest first. -/
def upward (dir : Path) : List Path :=
  (List.range (dir.parts.length + 1)).map fun n =>
    ⟨dir.anchor, dir.parts.take (dir.parts.length - n)⟩

/-- The first of some directories that holds a manifest file. -/
def nearest? : List Path → Action (Option Path)
  | [] => return none
  | dir :: dirs => do
    if ← Action.ask (·.isFile? (dir.child fileName)) then return some dir
    nearest? dirs

/-- Finds the nearest manifest above a directory, with the directory that holds it. -/
def find (start : Path) : Action (Path × Manifest) := do
  let start ← Action.ask (·.resolve start)
  match ← nearest? (upward start) with
  | none => throw (.manifest (.noneAbove start))
  | some dir => return (dir, ← load dir)

end SketchBuild.Manifest
