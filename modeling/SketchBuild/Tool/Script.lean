import SketchBuild.Text.Search
import SketchBuild.Tool.Basic

/-!
# Scripted tools

A list of rules stands for external programs: the first rule that matches a command says what
becomes of it. A rule may be good for a limited number of uses. A command that no rule matches
cannot be started.
-/

namespace SketchBuild.Tool

/-- Where a rule writes: to a path, or to the one named by a word of the command. -/
inductive Script.Target
  | path (p : Path)
  | word (index : Nat)

/-- A rule for commands. -/
structure Script.Rule where
  /-- The first word of the command, if it matters. -/
  program : Option String := none
  /-- Texts that occur in the command. -/
  mentions : List String := []
  /-- The number of uses left, if it is limited. -/
  uses : Option Nat := none
  /-- Why the program cannot be started, if it cannot. -/
  refusal : Option Refusal := none
  writes : List (Script.Target × List UInt8) := []
  deletes : List Path := []
  pid : Int
  processes : ProcessTable := .empty
  ending : Ending

namespace Script

/-- Whether a rule is for a command. -/
def Rule.matches (r : Rule) (i : Invocation) : Bool :=
  let command := (" ".intercalate i.argv).toList
  r.program.all (· == i.argv.headD "") &&
    r.mentions.all (fun m => Text.contains m.toList command) &&
    r.uses != some 0

/-- The first rule for a command, and the rules after its use. -/
def use (i : Invocation) : List Rule → Option Rule × List Rule
  | [] => (none, [])
  | r :: rs =>
    if r.matches i then (some r, { r with uses := r.uses.map (· - 1) } :: rs)
    else
      let (found, rs') := use i rs
      (found, r :: rs')

/-- The path that a rule writes to. A word that looks like an option names none. -/
def Target.resolve (i : Invocation) : Target → Option Path
  | .path p => some p
  | .word n =>
    match i.argv[n]? with
    | some w => if Text.startsWith w "-" then none else some (.ofString w)
    | none => none

/-- Writes a file and makes the directories above it. What was made before a failure stays. -/
def write (p : Path) (content : List UInt8) (d : Disk) : Option FileError × Disk :=
  match d.makePath p.parent with
  | (some e, d') => (some e, d')
  | (none, d') =>
    match d'.writeFile p content with
    | .error e => (some e, d')
    | .ok d'' => (none, d'')

/-- Writes the files of a rule in order. A write that the system refuses is passed over; one that is
given up before the system is asked is the end. -/
def writeAll (i : Invocation) :
    List (Target × List UInt8) → Disk → Option Refusal × Disk
  | [], d => (none, d)
  | (target, content) :: rest, d =>
    match target.resolve i with
    | none => writeAll i rest d
    | some p =>
      match write p content d with
      | (some e, d') => if e.refusal.isSystem then writeAll i rest d' else (some e.refusal, d')
      | (none, d') => writeAll i rest d'

/-- What a rule makes of a command. -/
def Rule.respond (r : Rule) (i : Invocation) (d : Disk) : Response :=
  match r.refusal with
  | some refusal => ⟨d.tree, .error refusal⟩
  | none =>
    match writeAll i r.writes d with
    | (some refusal, d') => ⟨d'.tree, .error refusal⟩
    | (none, d') =>
      ⟨(r.deletes.foldl (fun d p => (d.removeAny p).2) d').tree,
        .ok { pid := r.pid, processes := r.processes, ending := r.ending }⟩

/-- The programs that a list of rules stands for. -/
def tools (rules : List Rule) : Tools := fun past i d =>
  let left := past.foldl (fun rs j => (use j rs).2) rules
  match (use i left).1 with
  | none => ⟨d.tree, .error .notFound⟩
  | some r => r.respond i d

end Script

end SketchBuild.Tool
