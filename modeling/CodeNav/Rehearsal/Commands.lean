import CodeNav.Rehearsal.Shell.Run
import CodeNav.Sync.Synchronization
import CodeNav.Text.Split

/-!
# Rehearsing commands

In a rehearsal commands are not run but follow rules. The first rule whose text occurs in a command
as it is shown tells how long the command takes, what it puts out, and how it ends. A clone makes the
folder that its last argument names. On a machine with a shell commands are run by the shell.

## Main definitions

* `CommandRule`: what a command does
* `Workshop`: the rules, and the commands that were run
* `Workshop.turn`: running a command
-/

namespace CodeNav.Rehearsal

/-- What a command does. -/
structure CommandRule where
  /-- The text that occurs in the commands the rule is for. -/
  part : String
  /-- Whether a clone makes its folder at once. -/
  eager : Bool
  /-- How long the command takes, in milliseconds. -/
  delay : Nat
  output : List String
  /-- Why the command cannot be run. -/
  ioError : Option String
  code : Option Int
  /-- The time that the folder is given. -/
  mtime : Option Int
  /-- Whether a clone makes no folder. -/
  noFolder : Bool
  deriving Inhabited

/-- A command that succeeds at once. -/
def CommandRule.usual : CommandRule := ⟨"", false, 0, [], none, some 0, none, false⟩

/-- A machine with a shell: where programs are started, with which variables, and how long they may
take. -/
structure ShellHost where
  folder : Path
  vars : List (String × String)
  limit : Option Nat

/-- The rules or the machine, the commands that were run since somebody asked, and the repositories
whose change was told. -/
structure Workshop where
  rules : List CommandRule
  host : Option ShellHost
  ran : List Command
  invalidated : List RepositoryKey

/-- A command that is being run: when it ends, and with which status if that is settled. -/
structure CommandRun where
  readyAt : Nat
  status : Option CommandStatus

namespace Workshop

/-- A workshop in which nothing was run. -/
def opening (rules : List CommandRule) : Workshop := ⟨rules, none, [], []⟩

/-- A workshop with a machine. -/
def withHost (host : ShellHost) : Workshop := ⟨[], some host, [], []⟩

/-- The rule for a command. -/
def rule (w : Workshop) (c : Command) : CommandRule :=
  (w.rules.find? fun r => Text.occursIn r.part c.display).getD .usual

/-- Whether a command clones. -/
def isClone (c : Command) : Bool := c.args.head? = some "clone"

/-- The folder that a command works on. -/
def target? (c : Command) : Option Path :=
  if isClone c then c.args.getLast?.map Path.mk else c.folder

/-- The files after a command has made its folder, or why it could not. -/
def makeTarget (c : Command) (fs : FileSystem) : Except FileSystem.Cause FileSystem :=
  match target? c with
  | some p => fs.makeDirs p
  | none => .ok fs

/-- The files after a command has given its folder another time, or why it could not. -/
def ageTarget (c : Command) (time : Option Int) (fs : FileSystem) :
    Except FileSystem.Cause FileSystem :=
  match time, target? c with
  | some time, some p => (fs.stat p).map fun _ => fs.setTime p time
  | _, _ => .ok fs

/-- What comes of the turn of a command. -/
inductive Step where
  /-- The command ends later. -/
  | waits (readyAt : Nat)
  | began (run : CommandRun) (workshop : Workshop) (state : Checkouts)
  | ended (status : Except String CommandStatus) (workshop : Workshop) (state : Checkouts)

/-- A command begins on a machine. What it does within its time is done at once; only its end is
waited for. -/
def startOn (host : ShellHost) (now : Nat) (c : Command) (key : RepositoryKey) (w : Workshop)
    (s : Checkouts) : Step :=
  match Shell.runProgram s.fs (c.folder.getD host.folder) (Command.extraVariables ++ host.vars)
      host.limit c.program c.args with
  | .error fault => .ended (.error fault.message) w s
  | .ok (status, pieces, elapsed, fs) =>
    let s := { s with fs := fs }.onLog key (OutputLog.whole c pieces)
    let readyAt := if status.isSome then now + elapsed else now + elapsed + 1
    .began ⟨readyAt, status.map ExitStatus.commandStatus⟩ w s

/-- A command begins. -/
def start (now : Nat) (c : Command) (key : RepositoryKey) (w : Workshop) (s : Checkouts) : Step :=
  let r := w.rule c
  let w := { w with ran := w.ran ++ [c] }
  match w.host with
  | some host => startOn host now c key w s
  | none =>
    if isClone c && r.eager then
      match makeTarget c s.fs with
      | .ok fs => .began ⟨now + r.delay, none⟩ w { s with fs := fs }
      | .error cause => .ended (.error cause.message) w s
    else .began ⟨now + r.delay, none⟩ w s

/-- A command that ends with a code ends, having done its work when the code says so. -/
def finish (c : Command) (r : CommandRule) (fs : FileSystem) :
    Except FileSystem.Cause (CommandStatus × FileSystem) :=
  let status : CommandStatus := ⟨r.code⟩
  if status.isSuccess then do
    let fs ← if isClone c && !r.noFolder then makeTarget c fs else .ok fs
    let fs ← ageTarget c r.mtime fs
    .ok (status, fs)
  else .ok (status, fs)

/-- A command that follows a rule ends. -/
def finishBy (r : CommandRule) (c : Command) (key : RepositoryKey) (w : Workshop) (s : Checkouts) :
    Step :=
  let s := r.output.foldl (fun s text => s.onLog key (·.append (c.redact text))) s
  match r.ioError with
  | some reason => .ended (.error reason) w s
  | none =>
    match finish c r s.fs with
    | .ok (status, fs) => .ended (.ok status) w { s with fs := fs }
    | .error cause => .ended (.error cause.message) w s

/-- A command goes on, once it has begun, or begins. -/
def turn (now : Nat) (run : Option CommandRun) (c : Command) (key : RepositoryKey) (w : Workshop)
    (s : Checkouts) : Step :=
  match run with
  | none => w.start now c key s
  | some run =>
    if now < run.readyAt then .waits run.readyAt
    else
      match run.status with
      | some status => .ended (.ok status) w s
      | none => finishBy (w.rule c) c key w s

/-- What happened since somebody asked. -/
def news (w : Workshop) : (List Command × List RepositoryKey) × Workshop :=
  ((w.ran, w.invalidated), { w with ran := [], invalidated := [] })

end Workshop

end CodeNav.Rehearsal
