/-!
# Process trees

A tool that is interrupted may have started processes of its own. Its tree is torn down from the
leaves to the root: every process is asked to end, all are waited for once, and those that are still
there are killed. A process that is already gone is no error.
-/

namespace SketchBuild

/-- What is done to a process. -/
inductive ProcessInfo.Action
  | children
  | terminate
  | kill
deriving DecidableEq, Repr

/-- A process as the system's table shows it. An action listed in `gone` finds the process gone. The
children are all descendants, parents before their own children. -/
structure ProcessInfo where
  pid : Int
  children : List Int
  gone : List ProcessInfo.Action
deriving DecidableEq, Repr

/-- The processes of the system. Which of them end in the time that they are given is not decided
here, nor in which order those are told that do not. -/
structure ProcessTable where
  processes : List ProcessInfo
  /-- Those that are still there after a wait of some seconds. -/
  survivors : List ProcessInfo → Int → List ProcessInfo
  survivors_waited : ∀ ps seconds, ∃ kept, kept.Sublist ps ∧ (survivors ps seconds).Perm kept

namespace ProcessTable

/-- The processes with the given numbers outlast every wait, and no others. -/
def lasting (processes : List ProcessInfo) (pids : List Int) : ProcessTable where
  processes := processes
  survivors ps _ := ps.filter fun p => pids.contains p.pid
  survivors_waited _ _ := ⟨_, List.filter_sublist, .refl _⟩

/-- A system without processes. -/
def empty : ProcessTable := lasting [] []

end ProcessTable

namespace ProcessInfo

/-- What happened to the table while a tree was torn down. -/
inductive Event
  | listed (pid : Int) (found : Bool)
  | asked (pid : Int) (found : Bool)
  | waited (pids : List Int) (seconds : Int)
  | killed (pid : Int) (found : Bool)
deriving DecidableEq, Repr

/-- The process with the given number. -/
def find? (table : ProcessTable) (pid : Int) : Option ProcessInfo :=
  table.processes.find? (·.pid == pid)

/-- Whether an action reaches the process. -/
def reaches (p : ProcessInfo) (a : Action) : Bool := !p.gone.contains a

/-! ### Work on processes -/

/-- A process that was to be acted on is gone. -/
structure Gone where
  pid : Int
deriving DecidableEq, Repr

/-- Work on processes. It keeps what happened so far, and stops at a process that is gone. -/
abbrev Work := EStateM Gone (List Event)

/-- Keeps what happened. -/
def note (e : Event) : Work Unit := modify (· ++ [e])

/-- Looks a process up. -/
def look (table : ProcessTable) (pid : Int) : Work ProcessInfo :=
  match find? table pid with
  | some p => return p
  | none => throw ⟨pid⟩

/-- Does something to a process. -/
def act (p : ProcessInfo) (a : Action) (event : Int → Bool → Event) : Work Unit := do
  note (event p.pid (p.reaches a))
  if !p.reaches a then throw ⟨p.pid⟩

/-- Tries to do something to a process. Says whether it was there. -/
def attempt (p : ProcessInfo) (a : Action) (event : Int → Bool → Event) : Work Bool :=
  try
    p.act a event
    pure true
  catch _ => pure false

/-- Lists the descendants of a process that are still in the table. -/
def listDescendants (table : ProcessTable) (root : ProcessInfo) : Work (List ProcessInfo) := do
  root.act .children .listed
  return root.children.filterMap (find? table)

/-- Asks processes to end, one after the other. Gives those that were there. -/
def askAll : List ProcessInfo → Work (List ProcessInfo)
  | [] => return []
  | p :: ps => do
    let there ← p.attempt .terminate .asked
    let rest ← askAll ps
    return if there then p :: rest else rest

/-- Waits for processes to end. Gives those that are still there. -/
def wait (table : ProcessTable) (ps : List ProcessInfo) (seconds : Int) :
    Work (List ProcessInfo) := do
  note (.waited (ps.map (·.pid)) seconds)
  return table.survivors ps seconds

/-- Kills processes, one after the other. -/
def killAll : List ProcessInfo → Work Unit
  | [] => return
  | p :: ps => do
    let _ ← p.attempt .kill .killed
    killAll ps

/-- Tears down the tree below and with `root`: later descendants first, the root last. -/
def tearDownFrom (table : ProcessTable) (root : ProcessInfo) (seconds : Int) : Work Nat := do
  let children ← try listDescendants table root catch _ => pure []
  let signalled ← askAll (children.reverse ++ [root])
  killAll (← wait table signalled seconds)
  return signalled.length

/-- Tears down the tree of a process and waits `seconds` for it. Gives the number of processes that
were asked to end. -/
def tearDown (table : ProcessTable) (pid : Int) (seconds : Int) : Work Nat := do
  match ← (try some <$> look table pid catch _ => pure none) with
  | none => return 0
  | some root => tearDownFrom table root seconds

/-- What happens when the tree of a process is torn down, and the number of processes that were
asked to end. Nothing stops the work, so all of it is told. -/
def terminate (table : ProcessTable) (pid : Int) (seconds : Int) : List Event × Nat :=
  match tearDown table pid seconds [] with
  | .ok count events => (events, count)
  | .error _ events => (events, 0)

/-- The time that a tree is given to end, in seconds. -/
def defaultWait : Int := 3

end ProcessInfo

end SketchBuild
