import SketchBuild.CommandLine.Grammar
import SketchBuild.CommandLine.Manual
import SketchBuild.Path

/-!
# Requests

A command line asks for one of seven commands. This file has their grammars and reads a command line
into a request, or into the reason why there is none.
-/

namespace SketchBuild.CommandLine

/-- The commands. -/
inductive CommandName
  | build
  | check
  | upload
  | boards
  | clean
  | config
  | version
deriving DecidableEq, Repr

namespace CommandName

/-- All commands, in the order in which they are listed. -/
def all : List CommandName := [.build, .check, .upload, .boards, .clean, .config, .version]

/-- The word for a command. -/
def word : CommandName → String
  | .build => "build"
  | .check => "check"
  | .upload => "upload"
  | .boards => "boards"
  | .clean => "clean"
  | .config => "config"
  | .version => "version"

/-- What a command shows about itself. -/
def manual : CommandName → Manual
  | .build => .build
  | .check => .check
  | .upload => .upload
  | .boards => .boards
  | .clean => .clean
  | .config => .config
  | .version => .version

end CommandName

/-! ### Grammars -/

/-- Asks for the help text. -/
def helpOption : OptionSpec := ⟨["-h", "--help"], "help", .help⟩

/-- Asks for the version of the program. -/
def versionOption : OptionSpec := ⟨["--version"], "version", .version⟩

/-- Chooses the board. -/
def boardOption : OptionSpec := ⟨["-b", "--board"], "board", .value⟩

/-- Chooses the directory that all output goes to. -/
def outOption : OptionSpec := ⟨["-o", "--out"], "output_dir", .value⟩

/-- Asks to compile what was translated. -/
def compileOption : OptionSpec := ⟨["-c", "--compile"], "compile", .flag⟩

/-- Asks the translator for source maps. -/
def sourceMapOption : OptionSpec := ⟨["--source-map"], "source_map", .flag⟩

/-- Asks to show each step and command. -/
def verboseOption : OptionSpec := ⟨["-v", "--verbose"], "verbose", .flag⟩

/-- Chooses the serial port. -/
def portOption : OptionSpec := ⟨["-p", "--port"], "port", .value⟩

/-- Chooses the directory that holds the firmware. -/
def buildDirOption : OptionSpec := ⟨["--build-dir"], "build_dir", .value⟩

/-- The project directory, which may be left out. -/
def projectSlot : Slot := .optional "project_dir" []

/-- The grammar of the program: its own options, then a command and all after it. -/
def programGrammar : Grammar :=
  ⟨[helpOption, versionOption], [.command "command" (CommandName.all.map (·.word))]⟩

/-- The grammar of a command. -/
def CommandName.grammar : CommandName → Grammar
  | .build =>
    ⟨[helpOption, boardOption, outOption, compileOption, sourceMapOption, verboseOption],
      [projectSlot]⟩
  | .check => ⟨[helpOption, boardOption, verboseOption], [projectSlot]⟩
  | .upload =>
    ⟨[helpOption, portOption, boardOption, buildDirOption, verboseOption], [projectSlot]⟩
  | .boards => ⟨[helpOption], [.optional "action" ["list", "detect"]]⟩
  | .clean => ⟨[helpOption], [projectSlot]⟩
  | .config =>
    ⟨[helpOption],
      [.optional "action" ["list", "get", "set"], .optional "key" [], .optional "value" []]⟩
  | .version => ⟨[helpOption], []⟩

/-! ### Requests -/

/-- What is asked of the build command. -/
structure BuildRequest where
  projectDir : Option Path := none
  board : Option String := none
  outputDir : Option Path := none
  compile : Bool := false
  sourceMap : Bool := false
  verbose : Bool := false
deriving DecidableEq, Repr

/-- What is asked of the check command. -/
structure CheckRequest where
  projectDir : Option Path := none
  board : Option String := none
  verbose : Bool := false
deriving DecidableEq, Repr

/-- What is asked of the upload command. -/
structure UploadRequest where
  projectDir : Option Path := none
  port : Option String := none
  board : Option String := none
  buildDir : Option Path := none
  verbose : Bool := false
deriving DecidableEq, Repr

/-- What is done with settings. -/
inductive ConfigAction
  | list
  | get
  | set
deriving DecidableEq, Repr

/-- The word for what is done with settings. -/
def ConfigAction.word : ConfigAction → String
  | .list => "list"
  | .get => "get"
  | .set => "set"

/-- What a command line asks for. -/
inductive Request
  | nothing
  | build (r : BuildRequest)
  | check (r : CheckRequest)
  | upload (r : UploadRequest)
  | boards (detect : Bool)
  | clean (projectDir : Option Path)
  | config (action : ConfigAction) (key value : Option String)
  | version
deriving DecidableEq, Repr

/-- Whether a request asks for verbose output. -/
def Request.verbose : Request → Bool
  | .build r => r.verbose
  | .check r => r.verbose
  | .upload r => r.verbose
  | _ => false

/-- The project directory of a request that has one; `none` inside stands for the working
directory. -/
def Request.projectDir : Request → Option (Option Path)
  | .build r => some r.projectDir
  | .check r => some r.projectDir
  | .upload r => some r.projectDir
  | .clean dir => some dir
  | _ => none

/-- Why a command line is not carried out: a text is asked for, or it is refused. `who` is the
command whose usage applies, `none` for the program. -/
inductive Rejection
  | help (who : Option CommandName)
  | version
  | misuse (who : Option CommandName) (message : String)
deriving DecidableEq, Repr

/-- A halt of the grammar of the program or of a command. -/
def Rejection.ofHalt (who : Option CommandName) : Halt → Rejection
  | .help => .help who
  | .version => .version
  | .refused message => .misuse who message

/-- The project directory in matches. -/
def Matches.projectDir (m : Matches) : Option Path := (m.word? "project_dir").map .ofString

/-- The request of a command. -/
def CommandName.request (m : Matches) : CommandName → Request
  | .build =>
    .build
      { projectDir := m.projectDir, board := m.value? "board"
        outputDir := (m.value? "output_dir").map .ofString
        compile := m.flag "compile", sourceMap := m.flag "source_map"
        verbose := m.flag "verbose" }
  | .check =>
    .check { projectDir := m.projectDir, board := m.value? "board", verbose := m.flag "verbose" }
  | .upload =>
    .upload
      { projectDir := m.projectDir, port := m.value? "port", board := m.value? "board"
        buildDir := (m.value? "build_dir").map .ofString, verbose := m.flag "verbose" }
  | .boards => .boards (m.word? "action" == some "detect")
  | .clean => .clean m.projectDir
  | .config =>
    let action := match m.word? "action" with
      | some "get" => ConfigAction.get
      | some "set" => ConfigAction.set
      | _ => ConfigAction.list
    .config action (m.word? "key") (m.word? "value")
  | .version => .version

/-- Refuses words that nothing took. -/
def leftOverCheck (words : List String) (r : Request) : Except Rejection Request :=
  if words.isEmpty then .ok r
  else .error (.misuse none ("unrecognized arguments: " ++ " ".intercalate words))

/-- Reads a command line. -/
def Request.parse (args : List String) : Except Rejection Request :=
  match programGrammar.parse args with
  | .error h => .error (.ofHalt none h)
  | .ok m =>
    match m.command with
    | none => leftOverCheck m.leftOver .nothing
    | some (word, rest) =>
      match CommandName.all.find? (·.word == word) with
      | none => .error (.ofHalt none (refuseChoice "command" word (CommandName.all.map (·.word))))
      | some c =>
        match c.grammar.parse rest with
        | .error h => .error (.ofHalt (some c) h)
        | .ok m' => leftOverCheck (m.leftOver ++ m'.leftOver) (c.request m')

end SketchBuild.CommandLine
