import SketchBuild.Diagnostic.Compiler
import SketchBuild.Diagnostic.Translator
import SketchBuild.Diagnostic.Uploader

/-!
# One shape for all tools

`normalize` reads a tool's output by the grammar of its stage. The stage is given and never guessed
from the text.
-/

namespace SketchBuild.Diagnostic

/-- The diagnostic in a tool's output. Only a number of too many digits in the translator's output
cannot be read. -/
def normalize (stage : Stage) (origin : Option String) (raw : String) :
    Except Text.TooManyDigits Traceback :=
  match stage with
  | .translate => Translator.read origin raw.toList
  | .compile => .ok (Compiler.read origin raw.toList)
  | .upload => .ok (Uploader.read origin raw.toList)

end SketchBuild.Diagnostic
