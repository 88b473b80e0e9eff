import CodeNav.Sync.Synchronization

/-!
# Removing a checkout

A checkout is removed by a call that has the slot of its folder for itself. Afterwards the slot is
free for others, and those who have to know are told.

## Main definitions

* `Removal`: a call, with `Removal.begin`, `turn` and `drop`
-/

namespace CodeNav

/-- How far a removal has come. -/
inductive RemovalPhase where
  | waiting (place : PathLocks.Place)
  /-- It has the slot and is about to look for the checkout. -/
  | checking (place : PathLocks.Place)
  /-- The checkout was there. -/
  | removing (place : PathLocks.Place)
  /-- Others are told that the checkout is gone, while the call holds on to the slot. -/
  | invalidating (slot : Nat)
  deriving DecidableEq

/-- A call that removes a checkout. -/
structure Removal where
  key : RepositoryKey
  path : Path
  phase : RemovalPhase
  deriving DecidableEq

namespace Removal

/-- A call begins. -/
def begin (o : SyncOptions) (url : String) (c : Checkouts) :
    (Removal ⊕ Except SyncError Path) × Checkouts :=
  match o.locate url with
  | .error e => (.inr (.error e), c)
  | .ok (address, path) =>
    let (slot, locks) := c.locks.hold path
    let (place, locks) := locks.arrive slot
    (.inl ⟨address.key, path, .waiting place⟩, c.withLocks locks)

/-- What others have to do for a call. -/
def wants (r : Removal) : SyncWant :=
  match r.phase with
  | .invalidating _ => .invalidation r.key
  | _ => .nothing

/-- The call fails and gives up its slot. -/
def failWith (place : PathLocks.Place) (e : SyncError) (c : Checkouts) :
    Turn Checkouts Removal (Except SyncError Path) :=
  .finished (.error e) (c.withLocks ((c.locks.leave place).release place.slot))

/-- A call goes on. -/
def turn (news : SyncNews) (r : Removal) (c : Checkouts) :
    Turn Checkouts Removal (Except SyncError Path) :=
  match r.phase with
  | .waiting place =>
    match c.locks.admission place with
    | .notYet => .parked none
    | _ => .moved { r with phase := .checking place } c
  | .checking place =>
    if c.fs.present r.path then .moved { r with phase := .removing place } c
    else failWith place (.notCheckedOut r.path) c
  | .removing place =>
    match c.fs.removeTree r.path with
    | (.error cause, fs) =>
      failWith place (.io "failed to remove" r.path cause.message) { c with fs := fs }
    | (.ok (), fs) =>
      .moved { r with phase := .invalidating place.slot }
        ({ c with fs := fs }.withLocks (c.locks.leave place))
  | .invalidating slot =>
    match news with
    | .invalidated => .finished (.ok r.path) (c.withLocks (c.locks.release slot))
    | _ => .parked none

/-- A call is given up. -/
def drop (r : Removal) (c : Checkouts) : Checkouts :=
  match r.phase with
  | .waiting place => c.withLocks ((c.locks.leave place).release place.slot)
  | .checking place => c.withLocks ((c.locks.leave place).release place.slot)
  | .removing place => c.withLocks ((c.locks.leave place).release place.slot)
  | .invalidating slot => c.withLocks (c.locks.release slot)

end Removal

end CodeNav
