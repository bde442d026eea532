import SketchBuild.Text.Blank
import SketchBuild.Text.Case
import SketchBuild.Text.Str

/-!
# Boards

The catalog of supported boards. A board is found by its short id, without regard to case and to
blanks around it; the board tool knows it by its fully-qualified name.
-/

namespace SketchBuild

/-- A supported board, with its memory sizes in kilobytes. -/
structure Board where
  id : String
  name : String
  flash : Nat
  ram : Nat
  /-- The fully-qualified name, passed to the board tool as it is. -/
  fqbn : String
deriving DecidableEq, Repr

namespace Board

/-- All supported boards, in the order in which they are listed. -/
def catalog : List Board := [
  ⟨"uno", "Arduino Uno", 32, 2, "arduino:avr:uno"⟩,
  ⟨"nano", "Arduino Nano", 32, 2, "arduino:avr:nano"⟩,
  ⟨"mega", "Arduino Mega 2560", 256, 8, "arduino:avr:mega"⟩,
  ⟨"leonardo", "Arduino Leonardo", 32, 2, "arduino:avr:leonardo"⟩,
  ⟨"micro", "Arduino Micro", 32, 2, "arduino:avr:micro"⟩,
  ⟨"due", "Arduino Due (SAM3X8E)", 512, 96, "arduino:sam:arduino_due_x"⟩,
  ⟨"mkr1000", "Arduino MKR1000 (SAMD21)", 256, 32, "arduino:samd:mkr1000"⟩,
  ⟨"esp32", "ESP32 Dev Module", 4096, 520, "esp32:esp32:esp32"⟩,
  ⟨"esp8266", "ESP8266 Generic", 4096, 80, "esp8266:esp8266:generic"⟩,
  ⟨"pico", "Raspberry Pi Pico (RP2040)", 2048, 264, "rp2040:rp2040:rpipico"⟩,
  ⟨"teensy40", "Teensy 4.0 (iMXRT1062)", 1984, 1024, "teensy:avr:teensy40"⟩]

/-- The spelling of an id under which the catalog lists it. -/
def key (id : String) : String := String.ofList (Text.lower (Text.trim id.toList))

/-- The board with the given id. -/
def find? (id : String) : Option Board := catalog.find? fun b => b.id == key id

/-- The board that a string names. No board has a torn id. -/
def ofStr? : Text.Str → Option Board
  | .text id => find? id
  | .torn _ _ => none

end Board

end SketchBuild
