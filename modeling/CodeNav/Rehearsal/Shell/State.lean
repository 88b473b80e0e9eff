import CodeNav.Command.Output
import CodeNav.Rehearsal.Programs

/-!
# What a shell works on

## Main definitions

* `Shell.Machine`: files, variables, streams and the time that has passed
* `Shell.Flow`: where a script goes on
* `Shell.Machine.write`: writing to a stream
-/

namespace CodeNav.Rehearsal.Shell

/-- Where a stream leads. -/
inductive Sink where
  | channel (c : Channel)
  | captured
  | file (path : Path)
  | nowhere
  deriving DecidableEq, Inhabited

/-- What a script works on. -/
structure Machine where
  fs : FileSystem
  folder : Path
  vars : List (String × String)
  /-- The name of the script. -/
  name : String
  args : List String
  /-- How the last command ended. -/
  status : Nat
  input : List UInt8
  /-- What was written, the last piece first. -/
  pieces : List (Sink × List UInt8)
  out : Sink
  err : Sink
  /-- The time that has passed, in milliseconds. -/
  elapsed : Nat
  /-- When the script is stopped. -/
  limit : Option Nat
  /-- Whether the script ends at the first command that fails. -/
  strict : Bool
  /-- Whether a command that fails may be what the script looks for. -/
  lenient : Bool
  deriving Inhabited

/-- Where a script goes on. -/
inductive Flow where
  | next
  | exit
  | signal (number : Nat)
  /-- The time is over. -/
  | late
  /-- The innermost repetition ends, or its next round begins. -/
  | leave
  | again
  deriving DecidableEq, Inhabited

namespace Machine

/-- The value of a variable. -/
def value? (m : Machine) (name : String) : Option String := m.vars.lookup name

/-- Sets a variable. -/
def set (m : Machine) (name value : String) : Machine :=
  { m with vars := (name, value) :: m.vars.filter fun v => v.1 ≠ name }

/-- How the last command ended. -/
def ended (m : Machine) (status : Nat) : Machine := { m with status := status }

/-- The machine for a command that may fail. -/
def eased (m : Machine) : Machine := { m with lenient := true }

/-- A path as the script means it. -/
def pathOf (m : Machine) (name : String) : Path := m.folder.join name

/-- Writes bytes to a stream. -/
def write (m : Machine) (sink : Sink) (bytes : List UInt8) : Machine :=
  match sink with
  | .nowhere => m
  | .file path =>
    let old := ((m.fs.read path).toOption.getD ⟨#[]⟩).toList
    { m with fs := ((m.fs.write path ⟨(old ++ bytes).toArray⟩).toOption).getD m.fs }
  | sink => if bytes = [] then m else { m with pieces := (sink, bytes) :: m.pieces }

/-- Writes output. -/
def say (m : Machine) (bytes : List UInt8) : Machine := m.write m.out bytes

/-- Writes a text as output. -/
def sayText (m : Machine) (s : String) : Machine := m.say (Text.utf8Bytes s.toList)

/-- Complains, and ends with a status. -/
def complain (m : Machine) (text : String) (status : Nat) : Machine :=
  (m.write m.err (Text.utf8Bytes (text ++ "\n").toList)).ended status

/-- Lets time pass, unless it is over before. -/
def wait (m : Machine) (ms : Nat) : Flow × Machine :=
  match m.limit with
  | some limit =>
    if limit < m.elapsed + ms then (.late, { m with elapsed := limit })
    else (.next, { m with elapsed := m.elapsed + ms })
  | none => (.next, { m with elapsed := m.elapsed + ms })

/-- What the program has written for others to read, and the machine without it. -/
def takeCaptured (m : Machine) : List UInt8 × Machine :=
  ((m.pieces.filter fun p => p.1 = .captured).reverse.flatMap (·.2),
    { m with pieces := m.pieces.filter fun p => p.1 ≠ .captured })

end Machine

end CodeNav.Rehearsal.Shell
