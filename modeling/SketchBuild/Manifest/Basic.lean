import SketchBuild.Json.Display
import SketchBuild.Json.Reader
import SketchBuild.Path

/-!
# Project manifests

A manifest is a JSON object that names a project and its board and holds its dependencies and build
settings. The shape is checked, the values of dependencies and build settings are not: they are
carried over as they are.
-/

namespace SketchBuild

namespace Manifest

/-- The name of the manifest file. -/
def fileName : String := "goduino.json"

/-- A declared dependency. -/
structure Dependency where
  name : Json
  version : Json := .text ""
  kind : Json := .text "go"

/-- How a project is built. -/
structure BuildSettings where
  outputDir : Json := .text "build"
  cppStd : Json := .text "c++11"
  optimize : Json := .text "Os"
  extraFlags : Json := .arr []
  sourceMap : Json := .bool false

/-- The record that a faulty member was meant for. -/
inductive Section
  | dependency
  | build
deriving DecidableEq, Repr

/-- What is wrong with the members of a section. -/
inductive FieldError
  | unknown (part : Section) (name : Text.Str)
  | reserved (part : Section) (name : String)
  | unnamedDependency
  | notObject (kind : String)
  | notList (kind : String)
deriving DecidableEq, Repr

/-- Why there is no manifest. -/
inductive Error
  | notObject
  | unnamed
  | buildNotObject
  | badField (e : FieldError)
  | missing (dir : Path)
  | unreadable (file : Path) (e : Json.SyntaxError)
  | noneAbove (dir : Path)

/-- The record that a section is read into, as messages name it. -/
def Section.record : Section → String
  | .dependency => "Dependency"
  | .build => "BuildSettings"

/-- The wording of a fault in a section. -/
def FieldError.message : FieldError → Text.Str
  | .unknown part name =>
    s!"{part.record}.__init__() got an unexpected keyword argument '" ++ name ++ "'"
  | .reserved part name => s!"{part.record}.__init__() got multiple values for argument '{name}'"
  | .unnamedDependency =>
    "Dependency.__init__() missing 1 required positional argument: 'name'"
  | .notObject kind =>
    s!"godotino.config.manifest.Dependency() argument after ** must be a mapping, not {kind}"
  | .notList kind => s!"'{kind}' object is not iterable"

/-- The wording of an error. -/
def Error.message : Error → Text.Str
  | .notObject => s!"{fileName} must contain a JSON object"
  | .unnamed => s!"{fileName} is missing required field: name"
  | .buildNotObject => s!"'build' in {fileName} must be an object"
  | .badField e => s!"Invalid field in {fileName}: " ++ e.message
  | .missing dir =>
    s!"No {fileName} found in {dir}. Create one with at least a \"name\" field."
  | .unreadable file e => s!"Failed to parse {file}: {e.message}"
  | .noneAbove dir => s!"No {fileName} found (searched from {dir} upward)"

end Manifest

open Manifest in
/-- A project manifest. -/
structure Manifest where
  name : Text.Str
  board : Text.Str
  version : Text.Str
  goVersion : Text.Str
  description : Text.Str
  dependencies : List Dependency
  build : BuildSettings

namespace Manifest

/-! ### Checking the shape -/

/-- The first member that a section with the given fields does not take. -/
def badMember? (part : Section) (fields : List String) :
    List (Text.Str × Json) → Option FieldError
  | [] => none
  | (name, _) :: rest =>
    if name = .text "self" then some (.reserved part "self")
    else if (fields.map .text).contains name then badMember? part fields rest
    else some (.unknown part name)

/-- A member's value, or the default for a missing one. -/
def valueOr (default : Json) (name : String) (members : List (Text.Str × Json)) : Json :=
  (Json.member? name members).getD default

/-- Reads a dependency. A member that is not known is reported before a missing name. -/
def Dependency.ofJson : Json → Except FieldError Dependency
  | .obj members =>
    match badMember? .dependency ["name", "version", "kind"] members with
    | some e => .error e
    | none =>
      match Json.member? "name" members with
      | none => .error .unnamedDependency
      | some name =>
        .ok { name
              version := valueOr (.text "") "version" members
              kind := valueOr (.text "go") "kind" members }
  | v => .error (.notObject v.kind)

/-- Reads each value as a dependency. -/
def readDependencies : List Json → Except FieldError (List Dependency)
  | [] => .ok []
  | v :: vs =>
    match Dependency.ofJson v with
    | .error e => .error e
    | .ok d =>
      match readDependencies vs with
      | .error e => .error e
      | .ok ds => .ok (d :: ds)

/-- The values that a declaration of dependencies runs through: the items of an array, the
pieces of a string, the names of an object. What does not count as true declares none. -/
def declared (v : Json) : Except FieldError (List Json) :=
  if !v.truthy then .ok []
  else
    match v with
    | .arr items => .ok items
    | .str s => .ok (s.pieces.map fun p => .str (.ofPieces [p]))
    | .obj members => .ok (members.map fun (name, _) => .str name)
    | v => .error (.notList v.kind)

/-- Reads build settings. -/
def BuildSettings.ofMembers (members : List (Text.Str × Json)) : Except FieldError BuildSettings :=
  match badMember? .build ["output_dir", "cpp_std", "optimize", "extra_flags", "source_map"]
    members with
  | some e => .error e
  | none =>
    .ok { outputDir := valueOr (.text "build") "output_dir" members
          cppStd := valueOr (.text "c++11") "cpp_std" members
          optimize := valueOr (.text "Os") "optimize" members
          extraFlags := valueOr (.arr []) "extra_flags" members
          sourceMap := valueOr (.bool false) "source_map" members }

/-- The members of the build section; what does not count as true has none. -/
def buildMembers (members : List (Text.Str × Json)) : Except Error (List (Text.Str × Json)) :=
  let v := valueOr .null "build" members
  if !v.truthy then .ok []
  else
    match v with
    | .obj ms => .ok ms
    | _ => .error .buildNotObject

/-- Reads both sections, dependencies first. -/
def sections (deps : Json) (build : List (Text.Str × Json)) :
    Except FieldError (List Dependency × BuildSettings) :=
  match declared deps with
  | .error e => .error e
  | .ok vs =>
    match readDependencies vs with
    | .error e => .error e
    | .ok ds =>
      match BuildSettings.ofMembers build with
      | .error e => .error e
      | .ok b => .ok (ds, b)

/-- Checks the shape of a value and reads it as a manifest. -/
def ofJson : Json → Except Error Manifest
  | .obj members =>
    let name := valueOr .null "name" members
    if !name.truthy then .error .unnamed
    else
      match buildMembers members with
      | .error e => .error e
      | .ok build =>
        match sections (valueOr .null "dependencies" members) build with
        | .error e => .error (.badField e)
        | .ok (dependencies, build) =>
          .ok { name := name.toStr
                board := (valueOr (.text "") "board" members).toStr
                version := (valueOr (.text "0.1.0") "version" members).toStr
                goVersion := (valueOr (.text "1.21") "go_version" members).toStr
                description := (valueOr (.text "") "description" members).toStr
                dependencies, build }
  | _ => .error .notObject

end Manifest

end SketchBuild
