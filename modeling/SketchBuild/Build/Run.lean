import SketchBuild.Board
import SketchBuild.Firmware
import SketchBuild.Manifest.Basic
import SketchBuild.Settings.Basic
import SketchBuild.Sketch.Name
import SketchBuild.Translator

/-!
# Building a project

A build resolves the board, makes the sketch directory, translates every source into it, clears
away outputs of sources that are gone, writes the entry point and, if asked to, compiles the sketch.
It stops at the first failure.
-/

namespace SketchBuild.Build

open Text (Str)

/-- What is to be built. -/
structure Request where
  projectDir : Path
  manifest : Manifest
  board : Option String := none
  outputDir : Option Path := none
  sourceMap : Bool := false
  compile : Bool := false
  sources : Option (List Path) := none

/-- The tools of a build and whether its steps are shown. -/
structure Builder where
  settings : Settings
  verbose : Bool
  translator : Translator
  compiler : Compiler

/-- The builder that settings describe. -/
def Builder.ofSettings (settings : Settings) (verbose : Bool) : Builder :=
  { settings, verbose
    translator := .ofSetting settings.coreBinary verbose
    compiler := .ofSetting settings.arduinoCli verbose }

/-- The directory of what the compiler makes, inside the output directory. -/
def cacheName : String := ".cache"

/-- The board to build for: the requested one, else the manifest's, else the user's. -/
def boardOf (requested : Option String) (manifest : Manifest) (settings : Settings) : Json :=
  (Json.text (requested.getD "")).orElse ((Json.str manifest.board).orElse settings.defaultBoard)

/-- The directory that a manifest names, seen from the project. -/
def joinSetting (dir : Path) : Json → Action Directory
  | .str s => return .ofStr dir s
  | v => throw (.kind (.directory v.kind))

/-- The directory that all output goes to. -/
def outputRoot (r : Request) : Action Directory :=
  match r.outputDir with
  | some dir => return .named dir
  | none => joinSetting r.projectDir r.manifest.build.outputDir

/-- Tells a step of the build. -/
def Builder.step (b : Builder) (number : Nat) (message : Str) : Action Unit := do
  Action.log .debug message
  if b.verbose then Action.printStr (s!"[{number}/6] " ++ message)

/-! ### Sources -/

/-- The first source whose output was claimed before it, with the first that claimed it; `seen`
holds the sources before. -/
def clash? (seen : List Path) : List Path → Option (Path × Path)
  | [] => none
  | s :: rest =>
    match seen.find? fun other => other.stem == s.stem with
    | some other => some (other, s)
    | none => clash? (seen ++ [s]) rest

/-- Accepts sources whose outputs do not clash; `place` is where they were looked for. -/
def acceptSources (sources : List Path) (place : String) : Except Error (List Path) :=
  if sources.isEmpty then .error (.noSources place)
  else
    match clash? [] sources with
    | some (first, second) => .error (.clash first second)
    | none => .ok sources

/-- The directory of a project's sources. -/
def sourceDir (projectDir : Path) : Path := projectDir.child "src"

/-- The sources of a build: those given, or all in the source directory. -/
def discoverSources (projectDir : Path) (given : Option (List Path)) : Action (List Path) := do
  match given with
  | some sources => Action.ofExcept .build (acceptSources sources "the build request")
  | none =>
    let dir := sourceDir projectDir
    let sources ← Action.ask (·.list dir sourceSuffix)
    Action.ofExcept .build (acceptSources sources dir.toString)

/-! ### Steps -/

/-- Makes the sketch directory. -/
def makeSketchDir (dir : Path) : Action Unit :=
  try
    Action.changePartly (·.makePath dir)
  catch
    | .file e =>
      if e.refusal.isSystem then throw (.build (.environment dir e)) else throw (.file e)
    | f => throw f

/-- Translates sources one after the other into the sketch directory. -/
def translateAll (t : Translator) (sketchDir : Path) (board : Json) (sourceMap : Bool) :
    List Path → Action (List Translator.Outcome)
  | [] => return []
  | source :: rest => do
    let output := Sketch.outputOf sketchDir source
    let outcome ← t.translate source output board sourceMap
    Action.log .info s!"Transpiled {source.name} -> {output.name}"
    Action.print s!"  {source.name}  ->  {output.name}"
    return outcome :: (← translateAll t sketchDir board sourceMap rest)

/-- Clears away stale outputs and logs each. -/
def clearStale (sketchDir : Path) (keep : List Path) : Action Unit := do
  let stale ← Sketch.removeStale sketchDir keep
  stale.forM fun p => Action.log .info s!"Removed stale output {p.name}"

/-- Checks the sketch before it is compiled. -/
def checkSketch (dir : Path) (outputs : List Path) : Action Sketch.Checked :=
  try
    Sketch.check dir (some outputs)
  catch
    | .sketch e => throw (.build (.badSketch dir e))
    | f => throw f

/-- Compiles the sketch of a result; a failure carries the result along. -/
def compileSketch (c : Compiler) (sketch : Sketch.Checked) (fqbn : String) (cache : Path)
    (result : Result) : Action (Option Path) :=
  try
    c.compile sketch fqbn cache
  catch
    | .build (.compilerFailed t _) => throw (.build (.compilerFailed t (some result)))
    | f => throw f

/-- Compiles what was translated. -/
def Builder.compile (b : Builder) (root : Path) (result : Result) : Action Result := do
  let some board := Board.ofStr? result.board | throw (.build (.unknownBoard result.board))
  let result := { result with fqbn := some board.fqbn }
  b.step 5 s!"FQBN: {board.fqbn}"
  let sketch ← checkSketch result.sketchDir result.outputs
  let cache := root.child cacheName
  b.step 6 s!"Compiling into {cache}"
  let firmware ← compileSketch b.compiler sketch board.fqbn cache result
  if firmware.isNone then Action.log .warning s!"No firmware artifact found in {cache}"
  return { result with firmware }

/-- The board that a request is built for. -/
def Builder.boardFor (b : Builder) (r : Request) : Json := boardOf r.board r.manifest b.settings

/-- The name of the sketch that a request builds. -/
def Request.sketchName (r : Request) : String := Sketch.nameFor r.manifest.name.shown

/-- The sketch directory of a request, inside the output directory. -/
def Request.sketchDir (r : Request) (root : Path) : Path := root.child r.sketchName

/-- Whether the translator is asked to relate its output to the source. -/
def Request.wantsSourceMap (r : Request) : Bool := r.sourceMap || r.manifest.build.sourceMap.truthy

/-- Stops unless the translator is installed. -/
def Builder.requireTranslator (b : Builder) : Action Unit := do
  if !(← b.translator.isInstalled) then
    throw (.build (.tool (.translatorNotInstalled b.translator.binary.toStr)))

/-- Finds the translator and the sources. -/
def Builder.findSources (b : Builder) (r : Request) : Action (List Path) := do
  b.requireTranslator
  let sources ← discoverSources r.projectDir r.sources
  b.step 3 (s!"Transpiling {sources.length} file(s) [board: " ++ (b.boardFor r).toStr ++ "]")
  return sources

/-- Makes the sketch directory. Gives the output directory. -/
def Builder.makeRoom (b : Builder) (r : Request) : Action Path := do
  b.step 1 ("Target board: " ++ (b.boardFor r).toStr)
  let root ← outputRoot r
  b.step 2 ("Sketch directory: " ++ (root.child r.sketchName).spelling)
  let root ← Action.ofExcept .pieces root.path
  makeSketchDir (r.sketchDir root)
  return root

/-- Makes the sketch directory and finds the translator and the sources. Gives the output directory
and the sources. -/
def Builder.prepare (b : Builder) (r : Request) : Action (Path × List Path) := do
  let root ← b.makeRoom r
  let sources ← b.findSources r
  return (root, sources)

/-- What was made when all sources are translated. -/
def Result.ofTranslation (sketchDir : Path) (board : Json) (done : List Translator.Outcome) :
    Result :=
  { outputs := done.map (·.output), sketchDir, board := board.toStr, firmware := none
    fqbn := none, warnings := done.flatMap (·.warnings) }

/-- Makes a sketch of what was translated. -/
def Builder.assemble (b : Builder) (result : Result) : Action Unit := do
  clearStale result.sketchDir result.outputs
  let entry ← Sketch.writeEntryPoint result.sketchDir
  b.step 4 s!"Wrote {result.sketchDir.name}/{entry.name}"

/-- Makes a sketch of what was translated and, if asked to, compiles it. -/
def Builder.finish (b : Builder) (r : Request) (root : Path) (result : Result) :
    Action Result := do
  b.assemble result
  if r.compile then b.compile root result else return result

/-- Builds a project. -/
def Builder.build (b : Builder) (r : Request) : Action Result := do
  let (root, sources) ← b.prepare r
  let done ← translateAll b.translator (r.sketchDir root) (b.boardFor r) r.wantsSourceMap sources
  b.finish r root (.ofTranslation (r.sketchDir root) (b.boardFor r) done)

end SketchBuild.Build
