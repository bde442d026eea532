import SketchBuild.Disk.Basic
import SketchBuild.ProcessTree
import SketchBuild.Text.Utf8

/-!
# External tools

What an external program does is not decided here: it is any function of the programs started
before, of the command and of the disk. It leaves a file tree. A program may fail to start;
otherwise waiting for it ends with an exit code and two streams of bytes, or with an interrupt.
-/

namespace SketchBuild.Tool

/-- A program that is started: its words, its working directory if one is set, and whether its error
stream goes into its output. -/
structure Invocation where
  argv : List String
  cwd : Option String
  merge : Bool
deriving DecidableEq, Repr

/-- How waiting for a program ends. -/
inductive Ending
  | interrupted
  | exited (code : Int) (stdout stderr : List UInt8)

/-- A program that was started: its number, and the processes that there are while it runs. -/
structure Run where
  pid : Int
  processes : ProcessTable
  ending : Ending

/-- What becomes of an invocation: the tree that there is afterwards, and the program, unless the
system refuses to start it. -/
structure Response where
  tree : Tree
  outcome : Except Refusal Run

/-- A program that was started, or was to be, with the disk that it found. -/
structure Start where
  invocation : Invocation
  disk : Disk

/-- The behaviour of all programs: given the earlier invocations, the present one and the disk. -/
abbrev Tools := List Invocation → Invocation → Disk → Response

/-- What a program that has ended left. -/
structure Output where
  code : Int
  stdout : String
  stderr : String
deriving DecidableEq, Repr

namespace Output

/-- Whether the program succeeded. -/
def success (o : Output) : Bool := o.code == 0

/-- Both streams, the output first and without its trailing blanks. -/
def combined (o : Output) : String :=
  if o.stdout.isEmpty then o.stderr
  else if o.stderr.isEmpty then o.stdout
  else Text.stripRight o.stdout ++ "\n" ++ o.stderr

/-- The text of a stream. -/
def decode (bytes : List UInt8) : String := String.ofList (Text.Utf8.decode bytes)

/-- The output of a program; merged streams come as one. -/
def ofStreams (merge : Bool) (code : Int) (stdout stderr : List UInt8) : Output :=
  if merge then ⟨code, decode (stdout ++ stderr), ""⟩ else ⟨code, decode stdout, decode stderr⟩

end Output

end SketchBuild.Tool
