import CodeNav.Sync.Basic

/-!
# Synchronizing a checkout

A synchronization that is not forced has nothing to do when the checkout is there and nobody works
on it. Otherwise it waits for the slot of the checkout's folder. When somebody else has finished a
synchronization meanwhile, it shares the outcome; else it looks again, begins a log, clones or pulls,
builds, and tells that the checkout has changed, all of it while it has the slot for itself.

What others do for it, running a command and passing the word that a checkout has changed, is asked
for by its phase; the news is handed to its next turn.

## Main definitions

* `Synchronization`: a call, with `Synchronization.begin`, `turn` and `drop`
* `Synchronization.wants`: what others have to do for it
-/

namespace CodeNav

/-- What is to be synchronized, and how. -/
structure SyncTask where
  address : RepositoryAddress
  path : Path
  force : Bool
  token : Option String
  deriving DecidableEq, Inhabited

/-- A command that is being run for a synchronization. -/
structure SyncRun where
  command : Command
  /-- What the synchronization does if the command succeeds. -/
  action : SyncAction
  /-- Whether the command is the build. -/
  isBuild : Bool
  /-- When the command has taken too long. -/
  deadline : Option Nat
  deriving DecidableEq, Inhabited

/-- How far a synchronization has come. -/
inductive SyncPhase where
  /-- It is about to look for the checkout. -/
  | looking
  | looked (present : Bool)
  | waiting (place : PathLocks.Place)
  /-- It has the slot and is about to look for the checkout again. -/
  | checking (place : PathLocks.Place)
  | checked (place : PathLocks.Place) (present : Bool)
  /-- It is about to make the folder above the checkout. -/
  | preparing (place : PathLocks.Place)
  | running (place : PathLocks.Place) (run : SyncRun)
  /-- Others are told that the checkout has changed. -/
  | invalidating (place : PathLocks.Place) (action : SyncAction) (built : Bool)
  deriving DecidableEq

/-- What others have to do before a call can go on. -/
inductive SyncWant where
  | nothing
  /-- The command is to be run, and its output goes to the log of the repository. -/
  | command (command : Command) (key : RepositoryKey)
  | invalidation (key : RepositoryKey)

/-- What others have done. -/
inductive SyncNews where
  | nothing
  /-- The command ended, or could not be run. -/
  | ended (status : Except String CommandStatus)
  | invalidated

/-- A call that synchronizes a checkout. -/
structure Synchronization where
  task : SyncTask
  phase : SyncPhase
  deriving DecidableEq

namespace Synchronization

/-- The outcome when nothing was done. -/
def skipped (t : SyncTask) : SyncOutcome := ⟨t.address.key, t.path, .skipped, false⟩

/-- The call arrives at the slot of the checkout's folder. -/
def arrive (t : SyncTask) (c : Checkouts) : Synchronization × Checkouts :=
  let (slot, locks) := c.locks.hold t.path
  let (place, locks) := locks.arrive slot
  (⟨t, .waiting place⟩, c.withLocks locks)

/-- A call begins. -/
def begin (o : SyncOptions) (url : String) (force : Bool) (token : Option String) (c : Checkouts) :
    (Synchronization ⊕ SyncResult) × Checkouts :=
  match o.locate url with
  | .error e => (.inr (.error e), c)
  | .ok (address, path) =>
    let task : SyncTask := ⟨address, path, force, token⟩
    if force then
      let (s, c) := arrive task c
      (.inl s, c)
    else (.inl ⟨task, .looking⟩, c)

/-- What others have to do for a call. -/
def wants (s : Synchronization) : SyncWant :=
  match s.phase with
  | .running _ run => .command run.command s.task.address.key
  | .invalidating _ _ _ => .invalidation s.task.address.key
  | _ => .nothing

/-- Work in the slot has ended: its outcome is kept for those who wait, and the slot is given up. -/
def conclude (place : PathLocks.Place) (r : SyncResult) (c : Checkouts) :
    Turn Checkouts Synchronization SyncResult :=
  .finished r (c.withLocks ((c.locks.finish place r).release place.slot))

/-- Work in the slot has failed. -/
def failWith (t : SyncTask) (place : PathLocks.Place) (e : SyncError) (c : Checkouts) :
    Turn Checkouts Synchronization SyncResult :=
  conclude place (.error e) (c.logFailure t.address.key e)

/-- A command is to be run. -/
def run (o : SyncOptions) (t : SyncTask) (now : Nat) (place : PathLocks.Place) (command : Command)
    (action : SyncAction) (isBuild : Bool) : Synchronization :=
  ⟨t, .running place ⟨command, action, isBuild, o.commandTimeout.map (now + ·)⟩⟩

/-- All commands have succeeded: the log is complete, and others are told. -/
def succeed (t : SyncTask) (place : PathLocks.Place) (action : SyncAction) (built : Bool)
    (c : Checkouts) : Turn Checkouts Synchronization SyncResult :=
  .moved ⟨t, .invalidating place action built⟩ (c.onLog t.address.key (·.finish false))

/-- A command has succeeded. After the first one comes the build, if there is one. -/
def commandSucceeded (o : SyncOptions) (t : SyncTask) (now : Nat) (place : PathLocks.Place)
    (r : SyncRun) (c : Checkouts) : Turn Checkouts Synchronization SyncResult :=
  if r.isBuild then succeed t place r.action true c
  else
    match o.buildCommandIn t.path with
    | none => succeed t place r.action false c
    | some build =>
      .moved (run o t now place build r.action true)
        (c.onLog t.address.key (·.append ("\n$ " ++ build.display ++ "\n")))

/-- A command has ended. -/
def commandEnded (o : SyncOptions) (t : SyncTask) (now : Nat) (place : PathLocks.Place)
    (r : SyncRun) (status : Except String CommandStatus) (c : Checkouts) :
    Turn Checkouts Synchronization SyncResult :=
  match status with
  | .error reason => failWith t place (.commandFailed r.command.display reason) c
  | .ok status =>
    if status.isSuccess then commandSucceeded o t now place r c
    else if r.isBuild then failWith t place (.buildFailed r.command.display status.text) c
    else failWith t place (.commandFailed r.command.display status.text) c

/-- How it is said that a command has taken too long. -/
def lateText (limit : Option Nat) : String :=
  "no exit within " ++ toString (limit.getD 0) ++ "ms"

/-- A call goes on. A command that has ended counts even when its time is over. -/
def turn (o : SyncOptions) (now : Nat) (news : SyncNews) (s : Synchronization) (c : Checkouts) :
    Turn Checkouts Synchronization SyncResult :=
  let t := s.task
  let key := t.address.key
  match s.phase with
  | .looking => .moved ⟨t, .looked (c.fs.present t.path)⟩ c
  | .looked present =>
    if present && !c.locks.isHeld t.path then .finished (.ok (skipped t)) c
    else
      let (s, c) := arrive t c
      .moved s c
  | .waiting place =>
    match c.locks.admission place with
    | .notYet => .parked none
    | .granted => .moved ⟨t, .checking place⟩ c
    | .overtaken r => .finished r (c.withLocks ((c.locks.leave place).release place.slot))
  | .checking place => .moved ⟨t, .checked place (c.fs.present t.path)⟩ c
  | .checked place present =>
    if present && !t.force then conclude place (.ok (skipped t)) c
    else
      let c := { c with board := c.board.begin key }
      if present then .moved (run o t now place (o.pullCommand t.path) .updated false) c
      else .moved ⟨t, .preparing place⟩ c
  | .preparing place =>
    let clone := run o t now place (o.cloneCommand t.address t.path t.token) .cloned false
    match t.path.parent? with
    | none => .moved clone c
    | some parent =>
      match c.fs.makeDirs parent with
      | .ok fs => .moved clone { c with fs := fs }
      | .error cause => failWith t place (.io "failed to create" parent cause.message) c
  | .running place r =>
    match news with
    | .ended status => commandEnded o t now place r status c
    | _ =>
      match r.deadline with
      | none => .parked none
      | some time =>
        if time ≤ now then
          failWith t place (.commandFailed r.command.display (lateText o.commandTimeout)) c
        else .parked (some time)
  | .invalidating place action built =>
    match news with
    | .invalidated => conclude place (.ok ⟨key, t.path, action, built⟩) c
    | _ => .parked none

/-- The place of a call in the queue for its slot. -/
def place? (s : Synchronization) : Option PathLocks.Place :=
  match s.phase with
  | .looking => none
  | .looked _ => none
  | .waiting place => some place
  | .checking place => some place
  | .checked place _ => some place
  | .preparing place => some place
  | .running place _ => some place
  | .invalidating place _ _ => some place

/-- A call is given up. -/
def drop (s : Synchronization) (c : Checkouts) : Checkouts :=
  match s.place? with
  | none => c
  | some place => c.withLocks ((c.locks.leave place).release place.slot)

end Synchronization

end CodeNav
