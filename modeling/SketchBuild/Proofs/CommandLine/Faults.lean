import SketchBuild.Proofs.CommandLine.Clean
import SketchBuild.Proofs.CommandLine.Config
import SketchBuild.Proofs.CommandLine.Interrupt
import SketchBuild.Proofs.Disk.Refusal
import SketchBuild.Proofs.Upload.Calls
import SketchBuild.Proofs.Wording

/-!
# Faults that go through a command

`build`, `check` and `upload` turn into an exit code every fault that the console can show. The
other commands, and what comes before any command, handle the faults that they foresee. For each of
them the faults that go through are told by a condition on the disk, the settings and the program
that it starts.
-/

namespace SketchBuild

open SketchBuild.Action (FailsOnly failsOnly_of_ok failsOnly_iff_of_error failsOnly_bind_iff
  failsOnly_bind_of_ok failsOnly_congr)
open Text.Utf8 (encode)

/-! ## Questions to the disk -/

namespace Disk

variable {d : Disk} {p : Path}

end Disk

/-! ## Loading -/

namespace Settings

end Settings

namespace Manifest

section Search

variable {α : Type} {own : Fault → Prop} {k : Option Path → Action α} {depth : Nat} {w : World}

end Search

end Manifest

/-! ## Programs -/

namespace Tool

end Tool

/-! ## The console -/

namespace Console

end Console

namespace Command

section Errors

variable {α : Type} {title : String} {message : Text.Str} {hint : Option String} {w : World}

end Errors

end Command

/-! ## Commands -/

namespace CommandLine

open Command

section Projects

variable (dir : Path) (settings : Settings) (verbose : Bool) (w : World)

end Projects

/-! ### Commands that start a program -/

section Version

variable (settings : Settings) (w : World)

end Version

/-! ### Commands that work on files -/

section Config

variable (key value : String) (settings : Settings) {w : World} {p : Path}
  (hp : Settings.path? none w.env = some p)

end Config

section Clean

variable {dir root : Path} {m : Manifest} {w : World}

end Clean

/-! ### What comes before a command -/

end CommandLine

end SketchBuild
