import SketchBuild.Main
import SketchBuild.Tool.Script
import SketchBuild.Proofs.Disk.Listing
import SketchBuild.Proofs.Action
import SketchBuild.Proofs.Disk.Change
import SketchBuild.Proofs.Tool.Run
import SketchBuild.Proofs.Translation
import SketchBuild.Proofs.Build.Prepare
import SketchBuild.Proofs.Sketch.Directory
import SketchBuild.Proofs.Compilation
import SketchBuild.Proofs.Build.Calls
import SketchBuild.Proofs.Sketch.Name
import SketchBuild.Proofs.Build.ExactSketch
import SketchBuild.Proofs.Build.Rebuild
import SketchBuild.Proofs.Build.Incremental
import SketchBuild.Proofs.Build.Firmware
import SketchBuild.Proofs.Text
import SketchBuild.Proofs.Diagnostic.Grammar
import SketchBuild.Proofs.Diagnostic.Report
import SketchBuild.Proofs.Diagnostic.Quote
import SketchBuild.Proofs.Diagnostic.Feasible
import SketchBuild.Proofs.Diagnostic.Shape
import SketchBuild.Proofs.Numeral
import SketchBuild.Proofs.Diagnostic.LineNumber
import SketchBuild.Proofs.Tool.Refused
import SketchBuild.Proofs.StartRefusal
import SketchBuild.Proofs.Disk.Refusal
import SketchBuild.Proofs.Build.Assembly
import SketchBuild.Proofs.Build.Documented
import SketchBuild.Proofs.Text.Utf8
import SketchBuild.Proofs.Json.Canonical
import SketchBuild.Proofs.Json.Strings
import SketchBuild.Proofs.Json.Reading
import SketchBuild.Proofs.Json.RoundTrip
import SketchBuild.Proofs.Json.Limits
import SketchBuild.Proofs.Loading
import SketchBuild.Proofs.Settings.Store
import SketchBuild.Proofs.LoadFaults
import SketchBuild.Proofs.Command
import SketchBuild.Proofs.CommandLine.Config
import SketchBuild.Proofs.Disk.Removal
import SketchBuild.Proofs.CommandLine.Clean
import SketchBuild.Proofs.Congruence
import SketchBuild.Proofs.Trace
import SketchBuild.Proofs.Tool.Interrupted
import SketchBuild.Proofs.CommandLine.Interrupt
import SketchBuild.Proofs.Upload.Calls
import SketchBuild.Proofs.Wording
import SketchBuild.Proofs.CommandLine.Faults
import SketchBuild.Proofs.CommandLine.Status
import SketchBuild.Proofs.Build.Warnings
import SketchBuild.Proofs.CommandLine.Warnings
import SketchBuild.Proofs.Verbosity
import SketchBuild.Proofs.Diagnostic.ErrorLines
import SketchBuild.Proofs.Build.Frame
import SketchBuild.Proofs.Build.Validation
import SketchBuild.Proofs.Build.Sources
import SketchBuild.Proofs.Text.Lines
import SketchBuild.Proofs.Diagnostic.Recognition
import SketchBuild.Proofs.Diagnostic.LineEnds
import SketchBuild.Proofs.Diagnostic.Message
import SketchBuild.Proofs.Joined
import SketchBuild.Proofs.Check
import SketchBuild.Proofs.CommandLine.Verdict
import SketchBuild.Proofs.ProcessTree
import SketchBuild.Proofs.Sketch.Runs
import SketchBuild.Proofs.Manifest.Shape
import SketchBuild.Proofs.Settings.History
import SketchBuild.Proofs.Diagnostic.Colour
import SketchBuild.Proofs.Manifest.Nearest
import SketchBuild.Proofs.Text.Noise
import SketchBuild.Proofs.Diagnostic.Location
import SketchBuild.Proofs.Diagnostic.Aligned
import SketchBuild.Proofs.CommandLine.Arrangement
