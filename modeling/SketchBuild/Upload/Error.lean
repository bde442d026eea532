import SketchBuild.Json.Display

/-!
# Failures of an upload
-/

namespace SketchBuild.Upload

/-- Why an upload does not take place. -/
inductive Error
  | noPort
  | noBoardDetected
  | unknownBoard (board : Json) (port : String)
  | listingFailed (reason : String)

/-- The wording of a failure. -/
def Error.message : Error → String
  | .noPort => "no serial port given and auto-detection is disabled"
  | .noBoardDetected => "no board detected on any serial port"
  | .unknownBoard board _ => s!"unknown board {board.quoted}"
  | .listingFailed reason => s!"arduino-cli board list failed: {reason}"

/-- What the user can do about a failure. -/
def Error.hint : Error → String
  | .noPort => "pass --port /dev/ttyUSBx or run: godotino config set auto_detect true"
  | .noBoardDetected | .listingFailed _ =>
    "connect the board and try again, or pass --port /dev/ttyUSBx"
  | .unknownBoard _ _ => "run 'godotino boards list' for the full list"

/-- The port that was chosen before the failure. -/
def Error.port : Error → Option String
  | .unknownBoard _ port => some port
  | _ => none

end SketchBuild.Upload
