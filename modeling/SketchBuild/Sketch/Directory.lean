import SketchBuild.World

/-!
# Sketch directories

The board tool compiles a whole directory. It wants one entry point with the directory's own name,
such as `lamp/lamp.ino`, and takes every translated file beside it, so that a file left over from an
earlier build would end up in the firmware. `Sketch.check` accepts a directory with the right entry
point and exactly the outputs of the build; `Sketch.removeStale` clears away the others.
-/

namespace SketchBuild.Sketch

/-- The suffix of entry points. -/
def entrySuffix : String := ".ino"

/-- The suffix of translator output. -/
def outputSuffix : String := ".cpp"

/-- The content of a generated entry point. -/
def stub : List Char :=
  ("// Auto-generated by godotino - do not edit.\n" ++
    "// arduino-cli compiles the .cpp files in this directory automatically.\n").toList

/-- The entry point that belongs to a sketch directory. -/
def entryPoint (dir : Path) : Path := dir.child (dir.name ++ entrySuffix)

/-- The output of a source in a sketch directory. -/
def outputOf (dir source : Path) : Path := dir.child (source.stem ++ outputSuffix)

/-- A sketch directory that was checked, with its entry point. -/
structure Checked where
  dir : Path
  entry : Path

/-- The translator output in a directory. -/
def outputs (dir : Path) : Action (List Path) := Action.ask (·.list dir outputSuffix)

/-- The names of `xs` that are not in `ys`, each once, in code point order. -/
def namesOnlyIn (xs ys : List String) : List String :=
  (Text.inOrder (xs.filter (!ys.contains ·))).eraseDups

/-- The one entry point in a directory, which has the directory's own name. -/
def soleEntryPoint (dir : Path) : Action Path := do
  match ← Action.ask (·.list dir entrySuffix) with
  | [] => throw (.sketch (.noEntryPoint dir))
  | [entry] =>
    if entry.stem = dir.name then return entry
    else throw (.sketch (.misnamed entry.name dir.name))
  | entries => throw (.sketch (.severalEntryPoints dir (entries.map Path.name)))

/-- Stops unless the translator output in a directory has the names of the given paths. -/
def requireOutputs (dir : Path) (expected : List Path) : Action Unit := do
  let wanted := expected.map Path.name
  let present := (← Sketch.outputs dir).map Path.name
  let unexpected := namesOnlyIn present wanted
  let absent := namesOnlyIn wanted present
  if !unexpected.isEmpty || !absent.isEmpty then
    throw (.sketch (.wrongOutputs dir unexpected absent))

/-- Checks a directory. If the outputs of the build are given, it has to hold exactly these. -/
def check (dir : Path) (expected : Option (List Path)) : Action Checked := do
  if !(← Action.ask (·.isDirectory? dir)) then throw (.sketch (.missing dir))
  let entry ← soleEntryPoint dir
  expected.forM (requireOutputs dir)
  return { dir, entry }

/-- Writes the entry point of a sketch directory over any there is. -/
def writeEntryPoint (dir : Path) : Action Path := do
  let entry := entryPoint dir
  Action.writeText entry stub
  return entry

/-- Removes files one by one. -/
def removeAll (files : List Path) : Action Unit :=
  files.forM fun p => Action.change (·.removeFile p)

/-- Removes the translator output in a directory that has not the name of one to keep. Gives what
was removed. -/
def removeStale (dir : Path) (keep : List Path) : Action (List Path) := do
  let names := keep.map Path.name
  let stale := (← outputs dir).filter fun p => !names.contains p.name
  removeAll stale
  return stale

end SketchBuild.Sketch
