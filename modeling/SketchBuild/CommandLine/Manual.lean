/-!
# Usage and help texts

The texts that the command line shows for itself, for a terminal of eighty columns. A usage is the
first paragraph of its help.
-/

namespace SketchBuild.CommandLine

/-- What a command shows about itself. -/
structure Manual where
  usage : List String
  body : List String

namespace Manual

/-- Lines as they are printed. -/
def text (lines : List String) : String := String.join (lines.map (· ++ "\n"))

/-- The short form. -/
def usageText (m : Manual) : String := text m.usage

/-- The long form. -/
def helpText (m : Manual) : String := text (m.usage ++ "" :: m.body)

/-- The program itself. -/
def program : Manual where
  usage := [
    "usage: godotino [-h] [--version]",
    "                \x7bbuild,check,upload,boards,clean,config,version\x7d ..."]
  body := [
    "godotino - Go for Arduino build tool",
    "",
    "positional arguments:",
    "  \x7bbuild,check,upload,boards,clean,config,version\x7d",
    "                        Command to run",
    "    build               Transpile and optionally compile the project",
    "    check               Validate source files for errors and warnings (no",
    "                        output produced)",
    "    upload              Upload compiled firmware to a connected board",
    "    boards              List and detect supported boards",
    "    clean               Remove the build directory",
    "    config              Show or change user configuration",
    "    version             Print version information",
    "",
    "options:",
    "  -h, --help            show this help message and exit",
    "  --version             show program's version number and exit"]

/-- The command that builds. -/
def build : Manual where
  usage := [
    "usage: godotino build [-h] [-b BOARD] [-o OUTPUT_DIR] [-c] [--source-map] [-v]",
    "                      [project_dir]"]
  body := [
    "positional arguments:",
    "  project_dir           Project directory (default: current directory)",
    "",
    "options:",
    "  -h, --help            show this help message and exit",
    "  -b BOARD, --board BOARD",
    "                        Target board (default: from goduino.json)",
    "  -o OUTPUT_DIR, --out OUTPUT_DIR",
    "                        Output directory (default: build_dir from",
    "                        goduino.json)",
    "  -c, --compile         Compile to firmware after transpiling",
    "  --source-map          Emit #line directives mapping C++ back to Go sources",
    "  -v, --verbose         Show verbose output"]

/-- The command that checks. -/
def check : Manual where
  usage := [
    "usage: godotino check [-h] [-b BOARD] [-v] [project_dir]"]
  body := [
    "positional arguments:",
    "  project_dir           Project directory (default: current directory)",
    "",
    "options:",
    "  -h, --help            show this help message and exit",
    "  -b BOARD, --board BOARD",
    "                        Target board (default: from goduino.json)",
    "  -v, --verbose         Show verbose output"]

/-- The command that uploads. -/
def upload : Manual where
  usage := [
    "usage: godotino upload [-h] [-p PORT] [-b BOARD] [--build-dir BUILD_DIR] [-v]",
    "                       [project_dir]"]
  body := [
    "positional arguments:",
    "  project_dir           Project directory (default: current directory)",
    "",
    "options:",
    "  -h, --help            show this help message and exit",
    "  -p PORT, --port PORT  Serial port (default: auto-detect)",
    "  -b BOARD, --board BOARD",
    "                        Target board (default: from goduino.json)",
    "  --build-dir BUILD_DIR",
    "                        Directory with compiled firmware (default:",
    "                        <output_dir>/.cache)",
    "  -v, --verbose         Show verbose output"]

/-- The command that lists and detects boards. -/
def boards : Manual where
  usage := [
    "usage: godotino boards [-h] [\x7blist,detect\x7d]"]
  body := [
    "positional arguments:",
    "  \x7blist,detect\x7d",
    "",
    "options:",
    "  -h, --help     show this help message and exit"]

/-- The command that removes what was built. -/
def clean : Manual where
  usage := [
    "usage: godotino clean [-h] [project_dir]"]
  body := [
    "positional arguments:",
    "  project_dir  Project directory (default: current directory)",
    "",
    "options:",
    "  -h, --help   show this help message and exit"]

/-- The command that shows and changes settings. -/
def config : Manual where
  usage := [
    "usage: godotino config [-h] [\x7blist,get,set\x7d] [key] [value]"]
  body := [
    "positional arguments:",
    "  \x7blist,get,set\x7d",
    "  key",
    "  value",
    "",
    "options:",
    "  -h, --help      show this help message and exit"]

/-- The command that tells versions. -/
def version : Manual where
  usage := [
    "usage: godotino version [-h]"]
  body := [
    "options:",
    "  -h, --help  show this help message and exit"]

end Manual

end SketchBuild.CommandLine
