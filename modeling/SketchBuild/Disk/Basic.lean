import SketchBuild.Path
import SketchBuild.Disk.Tree
import SketchBuild.Text.Quoted
import SketchBuild.Text.Search

/-!
# The disk

A disk is a file tree together with a working directory. The operations here are those of an
operating system without links and without permissions. A path is walked name by name: every name
before the last has to lead to a directory. An operation that fails says why and on which path.

The working directory may be removed while it is in use. It is then still a directory, from which
`..` leads to the one that it was in, but it is empty, takes no new entries and has no path. Making
a directory of the same name does not bring it back. So the working directory always stands at or
below a directory of the tree, which a disk carries as `settled`.
-/

namespace SketchBuild

/-- Why the system refuses an operation. -/
inductive Refusal
  | notFound
  | badFormat
  | denied
  | alreadyExists
  | notDirectory
  | isDirectory
  | invalid
  | nameTooLong
  | notEmpty
  /-- No path may hold the character of code zero. -/
  | nullCharacter
deriving DecidableEq, Repr

/-- Whether a refusal comes from the system. A path that it cannot be given is refused before. -/
def Refusal.isSystem (r : Refusal) : Bool := r ≠ .nullCharacter

/-- How a message names the path of a refused operation. -/
inductive Mention
  | nothing
  | text (path : String)
  | object (path : String)
deriving DecidableEq, Repr

/-- A refused operation. -/
structure FileError where
  refusal : Refusal
  mention : Mention
deriving DecidableEq, Repr

namespace FileError

/-- The refusal of an operation on a path. -/
def on (r : Refusal) (p : Path) : FileError := ⟨r, .text p.toString⟩

/-- The number and the wording of a refusal; one that does not come from the system has no
number. -/
def reason : Refusal → Nat × String
  | .notFound => (2, "No such file or directory")
  | .badFormat => (8, "Exec format error")
  | .denied => (13, "Permission denied")
  | .alreadyExists => (17, "File exists")
  | .notDirectory => (20, "Not a directory")
  | .isDirectory => (21, "Is a directory")
  | .invalid => (22, "Invalid argument")
  | .nameTooLong => (36, "File name too long")
  | .notEmpty => (39, "Directory not empty")
  | .nullCharacter => (0, "embedded null byte")

/-- The wording of a refused operation. -/
def message (e : FileError) : String :=
  let (number, words) := reason e.refusal
  if !e.refusal.isSystem then words
  else
    s!"[Errno {number}] {words}" ++
      match e.mention with
      | .nothing => ""
      | .text p => ": " ++ Text.quote p
      | .object p => ": PosixPath(" ++ Text.quote p ++ ")"

end FileError

/-- A place on a disk: a location of the tree, or a directory that was removed from below one. -/
structure Place where
  /-- The location; for a removed directory, the nearest one above it that was not removed. -/
  loc : Location
  /-- The number of removed levels below `loc`. -/
  lost : Nat := 0
deriving DecidableEq, Repr

namespace Place

/-- The directory that a place is in. -/
def parent (p : Place) : Place :=
  match p.lost with
  | 0 => ⟨p.loc.dropLast, 0⟩
  | n + 1 => ⟨p.loc, n⟩

/-- What stands at a place. -/
def occupant? (t : Tree) (p : Place) : Option Entry :=
  if p.lost = 0 then t.get? p.loc else some .directory

/-- The names of the entries in a place, in code point order. -/
def childNames (t : Tree) (p : Place) : List String :=
  if p.lost = 0 then t.childNames p.loc else []

/-- The nearest directory of a tree at or above a location, given by its names from the last to the
first. The levels given up on the way add to those that were lost before. -/
def climb (t : Tree) : (names : List String) → (lost : Nat) → Place
  | [], lost => ⟨[], lost⟩
  | n :: up, lost =>
    if t.isDirectory (n :: up).reverse then ⟨(n :: up).reverse, lost⟩ else climb t up (lost + 1)

/-- The same place in a tree from which directories may have been removed. -/
def settle (t : Tree) (p : Place) : Place := climb t p.loc.reverse p.lost

/-- A place whose location is still a directory stays what it was. -/
theorem settle_eq_self {t : Tree} {p : Place} (h : t.isDirectory p.loc = true) :
    p.settle t = p := by
  obtain ⟨loc, lost⟩ := p
  unfold settle
  cases hr : loc.reverse with
  | nil =>
    obtain rfl : loc = [] := by simpa using hr
    rfl
  | cons n up =>
    have hl : (n :: up).reverse = loc := by rw [← hr, List.reverse_reverse]
    rw [climb, hl, if_pos h]

theorem isDirectory_climb (t : Tree) (names : List String) (lost : Nat) :
    t.isDirectory (climb t names lost).loc = true := by
  induction names generalizing lost with
  | nil => rfl
  | cons n up ih =>
    rw [climb]
    split
    · assumption
    · exact ih (lost + 1)

/-- A place settles on a directory. -/
theorem isDirectory_settle (t : Tree) (p : Place) : t.isDirectory (p.settle t).loc = true :=
  isDirectory_climb t p.loc.reverse p.lost

end Place

/-- A file tree and a working directory. -/
structure Disk where
  tree : Tree
  cwd : Place
  settled : tree.isDirectory cwd.loc = true

namespace Disk

/-- The longest path that the system takes, in bytes. -/
def maxPath : Nat := 4095

/-- The disk with another tree in place of its own. -/
def withTree (d : Disk) (t : Tree) : Disk := ⟨t, d.cwd.settle t, Place.isDirectory_settle t d.cwd⟩

/-- The disk seen from another place. -/
def seenFrom (d : Disk) (p : Place) : Disk :=
  ⟨d.tree, p.settle d.tree, Place.isDirectory_settle _ _⟩

/-- The disk with an entry put in. -/
def insert (d : Disk) (loc : Location) (e : Entry) : Disk :=
  ⟨d.tree.insert loc e, d.cwd, Tree.isDirectory_insert d.settled loc e⟩

/-- The disk with a file taken out. -/
def eraseFile (d : Disk) (loc : Location) : Disk :=
  ⟨d.tree.eraseFile loc, d.cwd, Tree.isDirectory_eraseFile d.settled loc⟩

/-- Walks along names from a place. Each step needs a directory to stand on; the last place need
not exist. -/
def walk (t : Tree) : Place → List String → Except Refusal Place
  | p, [] => .ok p
  | p, n :: ns =>
    match p.occupant? t with
    | none => .error .notFound
    | some (.file _ _) => .error .notDirectory
    | some .directory =>
      if n = "." then walk t p ns
      else if n = ".." then walk t p.parent ns
      else if p.lost ≠ 0 then .error .notFound
      else if maxName < n.utf8ByteSize then .error .nameTooLong
      else walk t ⟨p.loc ++ [n], 0⟩ ns

/-- Follows the text of a path, whose names are given. -/
def follow (d : Disk) (text : String) (absolute : Bool) (names : List String) :
    Except Refusal Place :=
  if hasNull text then .error .nullCharacter
  else if maxPath < text.utf8ByteSize then .error .nameTooLong
  else walk d.tree (if absolute then ⟨[], 0⟩ else d.cwd) names

/-- The place that a path leads to. -/
def locate (d : Disk) (p : Path) : Except Refusal Place := d.follow p.toString p.isAbsolute p.parts

/-- The place that a text leads to, taken as it is spelled. The empty text leads nowhere, and a
trailing slash asks for a directory. -/
def locateSpelling (d : Disk) (spelling : String) : Except Refusal Place :=
  if spelling.isEmpty then .error .notFound
  else
    d.follow spelling (Text.startsWith spelling "/")
      (Path.names spelling ++ if Text.endsWith spelling "/" then ["."] else [])

/-- The entry that a path leads to. -/
def stat (d : Disk) (p : Path) : Except Refusal Entry :=
  match d.locate p with
  | .error r => .error r
  | .ok place =>
    match place.occupant? d.tree with
    | none => .error .notFound
    | some e => .ok e

/-! ### Questions -/

/-- Asks about the entry of a path. A path that leads nowhere answers `false`; a name or a path that
is too long is an error. -/
def ask (d : Disk) (p : Path) (answer : Entry → Bool) : Except FileError Bool :=
  match d.stat p with
  | .ok e => .ok (answer e)
  | .error .notFound | .error .notDirectory | .error .nullCharacter => .ok false
  | .error r => .error (.on r p)

/-- Whether a path leads to an entry. -/
def exists? (d : Disk) (p : Path) : Except FileError Bool := d.ask p fun _ => true

/-- Whether a path leads to a directory. -/
def isDirectory? (d : Disk) (p : Path) : Except FileError Bool := d.ask p (· = .directory)

/-- Whether a path leads to a file. -/
def isFile? (d : Disk) (p : Path) : Except FileError Bool := d.ask p (· ≠ .directory)

/-- The entries of a directory whose names end in `suffix`, in code point order. What is not a
directory has none. -/
def list (d : Disk) (dir : Path) (suffix : String) : Except FileError (List Path) :=
  match d.isDirectory? dir with
  | .error e => .error e
  | .ok false => .ok []
  | .ok true =>
    match d.locate dir with
    | .error r => .error (.on r dir)
    | .ok place => .ok (((place.childNames d.tree).filter (Text.endsWith · suffix)).map dir.child)

/-- Whether the text of a path, taken as it is spelled, leads to an executable file. -/
def isExecutable (d : Disk) (spelling : String) : Bool :=
  match d.locateSpelling spelling with
  | .error _ => false
  | .ok place =>
    match place.occupant? d.tree with
    | some (.file _ executable) => executable
    | _ => false

/-- The path of the working directory. A removed one has none. -/
def workingDirectory (d : Disk) : Except FileError Path :=
  if d.cwd.lost = 0 then .ok ⟨.slash, d.cwd.loc⟩ else .error ⟨.notFound, .nothing⟩

/-- Removes `..` together with the name before it. -/
def collapse : List String → List String → List String
  | done, [] => done
  | done, n :: ns => collapse (if n = ".." then done.dropLast else done ++ [n]) ns

/-- The path from the root without `..`. -/
def resolve (d : Disk) (p : Path) : Except FileError Path :=
  if p.parts.any hasNull then .error (.on .nullCharacter p)
  else if p.isAbsolute then .ok ⟨.slash, collapse [] p.parts⟩
  else
    match d.workingDirectory with
    | .error e => .error e
    | .ok here => .ok ⟨.slash, collapse here.parts p.parts⟩

/-! ### Changes -/

/-- Makes a directory, whose path is taken as it is spelled, the working directory. -/
def enter (d : Disk) (spelling : String) : Except FileError Disk :=
  match d.locateSpelling spelling with
  | .error r => .error ⟨r, .text spelling⟩
  | .ok place =>
    match place.occupant? d.tree with
    | none => .error ⟨.notFound, .text spelling⟩
    | some (.file _ _) => .error ⟨.notDirectory, .text spelling⟩
    | some .directory => .ok (d.seenFrom place)

/-- Makes one directory. -/
def makeDirectory (d : Disk) (p : Path) : Except Refusal Disk :=
  match d.locate p with
  | .error r => .error r
  | .ok place =>
    match place.occupant? d.tree with
    | some _ => .error .alreadyExists
    | none => .ok (d.insert place.loc .directory)

/-- Makes one directory unless there is one already. -/
def ensureDirectory (d : Disk) (p : Path) : Except FileError Disk :=
  match d.makeDirectory p with
  | .ok d' => .ok d'
  | .error .notFound => .error (.on .notFound p)
  | .error .nullCharacter => .error (.on .nullCharacter p)
  | .error r =>
    match d.isDirectory? p with
    | .error e => .error e
    | .ok true => .ok d
    | .ok false => .error (.on r p)

/-- Makes a directory and the missing ones above it, at most `depth` of them. What was made before
a failure stays. -/
def ensureDirectories : (depth : Nat) → Path → Disk → Option FileError × Disk
  | 0, p, d =>
    match d.ensureDirectory p with
    | .ok d' => (none, d')
    | .error e => (some e, d)
  | depth + 1, p, d =>
    match d.ensureDirectory p with
    | .ok d' => (none, d')
    | .error e =>
      if e.refusal = .notFound then
        match ensureDirectories depth p.parent d with
        | (some e', d') => (some e', d')
        | (none, d') =>
          match d'.ensureDirectory p with
          | .ok d'' => (none, d'')
          | .error e' => (some e', d')
      else (some e, d)

/-- Makes a directory and all that is missing above it. -/
def makePath (d : Disk) (p : Path) : Option FileError × Disk :=
  ensureDirectories p.parts.length p d

/-- Writes a file, which keeps its executable mark if it was there before. -/
def writeFile (d : Disk) (p : Path) (content : List UInt8) : Except FileError Disk :=
  match d.locate p with
  | .error r => .error (.on r p)
  | .ok place =>
    match place.occupant? d.tree with
    | some .directory => .error (.on .isDirectory p)
    | some (.file _ executable) => .ok (d.insert place.loc (.file content executable))
    | none => .ok (d.insert place.loc (.file content false))

/-- Gives a file its executable mark or takes it away. -/
def setExecutable (d : Disk) (p : Path) (executable : Bool) : Except FileError Disk :=
  match d.locate p with
  | .error r => .error (.on r p)
  | .ok place =>
    match place.occupant? d.tree with
    | none => .error (.on .notFound p)
    | some .directory => .ok d
    | some (.file content _) => .ok (d.insert place.loc (.file content executable))

/-- The bytes of a file. -/
def readFile (d : Disk) (p : Path) : Except FileError (List UInt8) :=
  match d.stat p with
  | .error r => .error (.on r p)
  | .ok .directory => .error (.on .isDirectory p)
  | .ok (.file content _) => .ok content

/-- Removes a file. -/
def removeFile (d : Disk) (p : Path) : Except FileError Disk :=
  match d.locate p with
  | .error r => .error (.on r p)
  | .ok place =>
    match place.occupant? d.tree with
    | none => .error (.on .notFound p)
    | some .directory => .error (.on .isDirectory p)
    | some (.file _ _) => .ok (d.eraseFile place.loc)

/-- Removes a directory with all that is in it. Its content goes first; then the path is looked up
again, since it may lead through what has just been removed. A directory is only removed by its
name, not as `.` or `..`. -/
def removeTree (d : Disk) (p : Path) : Option FileError × Disk :=
  match d.locate p with
  | .error r => (some (.on r p), d)
  | .ok place =>
    match place.occupant? d.tree with
    | none => (some (.on .notFound p), d)
    | some (.file _ _) => (some ⟨.notDirectory, .object p.toString⟩, d)
    | some .directory =>
      let emptied := if place.lost = 0 then d.withTree (d.tree.eraseBelow place.loc) else d
      match emptied.stat p with
      | .error r => (some (.on r p), emptied)
      | .ok _ =>
        if p.name = ".." then (some (.on .notEmpty p), emptied)
        else if p.parts = [] then (some (.on .invalid p), emptied)
        else (none, emptied.withTree (emptied.tree.erase place.loc))

/-- Removes whatever a path leads to, if there is anything. -/
def removeAny (d : Disk) (p : Path) : Option FileError × Disk :=
  match d.stat p with
  | .error _ => (none, d)
  | .ok .directory => d.removeTree p
  | .ok (.file _ _) =>
    match d.removeFile p with
    | .error e => (some e, d)
    | .ok d' => (none, d')

end Disk

end SketchBuild
