import SketchBuild.Path

/-!
# Faulty sketch directories
-/

namespace SketchBuild.Sketch

/-- Why a directory is not a sketch. -/
inductive Error
  | missing (dir : Path)
  | noEntryPoint (dir : Path)
  | severalEntryPoints (dir : Path) (names : List String)
  | misnamed (entry dir : String)
  | wrongOutputs (dir : Path) (unexpected absent : List String)
deriving DecidableEq

/-- Names in a message, with a dash if they leave it empty. -/
def nameList (names : List String) : String :=
  let text := ", ".intercalate names
  if text.isEmpty then "-" else text

/-- The wording of an error. -/
def Error.message : Error → String
  | .missing dir => s!"Sketch directory not found: {dir}"
  | .noEntryPoint dir => s!"No .ino entry point in {dir}"
  | .severalEntryPoints dir names =>
    s!"Sketch directory {dir} has more than one .ino file: " ++ ", ".intercalate names
  | .misnamed entry dir =>
    s!"Entry point {entry} does not match sketch directory name '{dir}' (expected {dir}.ino)"
  | .wrongOutputs dir unexpected absent =>
    s!"Sketch directory {dir} does not match the build inputs " ++
      s!"(unexpected: {nameList unexpected}; missing: {nameList absent})"

end SketchBuild.Sketch
