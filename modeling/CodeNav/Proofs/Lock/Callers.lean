import CodeNav.Lock.Paths
import CodeNav.Proofs.Run

/-!
# Callers of the locks for paths

Callers take slots for paths, make calls in them and let go of them, in any order. A caller may make
several calls in a slot, one after the other or at the same time, and holds on to the slot until the
last of them is over. A call may be dropped whenever it waits or works.

What is seen of it is a history of events. The work of a call comes to an outcome that the callers do
not control, at a time that they do not control either.

## Main definitions

* `LockWorld`: the locks, the slots that callers hold on to, and the calls
* `LockEvent`: what is seen of callers and calls
* `LockWorld.Step`: how callers and calls take turns
-/

namespace CodeNav

/-- What is seen of callers and calls. The calls are numbered in the order in which they arrive. -/
inductive LockEvent (α : Type) where
  /-- A caller takes a slot for a path. -/
  | took (handle : Nat) (path : Path)
  | letGo (handle : Nat)
  /-- A call arrives: it reads the generation and queues up. -/
  | called (call : Nat) (path : Path) (exclusive : Bool)
  /-- The work of a call begins. -/
  | entered (call : Nat) (path : Path) (exclusive : Bool)
  /-- The exclusive work of a call has come to an outcome, and the call returns. -/
  | ended (call : Nat) (path : Path) (outcome : α) (result : Exclusive α)
  /-- A call with exclusive work returns without having done it. -/
  | shared (call : Nat) (path : Path) (result : Exclusive α)
  /-- The work of a call has ended that was only to be kept apart. -/
  | left (call : Nat) (path : Path)
  | dropped (call : Nat) (path : Path)

namespace LockEvent

variable {α : Type}

/-- The call that is over after an event. -/
def closes : LockEvent α → Option Nat
  | ended c _ _ _ => some c
  | shared c _ _ => some c
  | left c _ => some c
  | dropped c _ => some c
  | _ => none

/-- The call that arrives with an event. -/
def arrives : LockEvent α → Option Nat
  | called c _ _ => some c
  | _ => none

/-- The outcome of exclusive work on a path that has ended with an event. -/
def outcomeOn (p : Path) : LockEvent α → Option α
  | ended _ q x _ => if q.same p then some x else none
  | _ => none

/-- The outcomes of exclusive work on a path, in the order in which it ended. -/
def outcomesOn (p : Path) (t : List (LockEvent α)) : List α :=
  t.filterMap (outcomeOn p)

end LockEvent

/-- A caller that holds on to the slot of a path. -/
structure LockHandle where
  path : Path
  slot : Nat
  deriving DecidableEq

/-- A call in a slot; it has no phase when it is over. -/
structure LockEntry where
  handle : Nat
  path : Path
  exclusive : Bool
  phase : Option LockCall
  deriving DecidableEq

/-- The locks, those who hold on to slots as long as they do, and all calls that were made. -/
structure LockWorld (α : Type) where
  locks : PathLocks α
  handles : List (Option LockHandle)
  calls : List LockEntry

namespace LockWorld

variable {α : Type}

/-- Nobody has taken a slot yet. -/
def empty : LockWorld α := ⟨.none, [], []⟩

/-- A call has come to another phase, or is over. -/
def advance (w : LockWorld α) (c : Nat) (phase : Option LockCall) (l : PathLocks α) :
    LockWorld α :=
  { w with locks := l, calls := w.calls.modify c fun k => { k with phase := phase } }

/-- How callers and calls take turns. -/
inductive Step (w : LockWorld α) : LockEvent α → LockWorld α → Prop
  | take (p : Path) :
      Step w (.took w.handles.length p)
        { w with
          locks := (w.locks.hold p).2
          handles := w.handles ++ [some ⟨p, (w.locks.hold p).1⟩] }
  /-- A slot is held as long as calls are under way in it. -/
  | letGo {h : Nat} {a : LockHandle} (hh : w.handles[h]? = some (some a))
      (hidle : ∀ k ∈ w.calls, k.handle = h → k.phase = none) :
      Step w (.letGo h)
        { w with locks := w.locks.release a.slot, handles := w.handles.set h none }
  | call {h : Nat} {a : LockHandle} (exclusive : Bool) (hh : w.handles[h]? = some (some a)) :
      Step w (.called w.calls.length a.path exclusive)
        { w with
          locks := (LockCall.start a.slot w.locks).2
          calls := w.calls ++ [⟨h, a.path, exclusive, some (LockCall.start a.slot w.locks).1⟩] }
  | enter {c : Nat} {k : LockEntry} {ph ph' : LockCall} {l : PathLocks α}
      (hk : w.calls[c]? = some k) (hph : k.phase = some ph) (he : k.exclusive = true)
      (hturn : ph.exclusiveTurn none w.locks = .moved ph' l) :
      Step w (.entered c k.path k.exclusive) (w.advance c (some ph') l)
  | enterApart {c : Nat} {k : LockEntry} {ph ph' : LockCall} {l : PathLocks α}
      (hk : w.calls[c]? = some k) (hph : k.phase = some ph) (he : k.exclusive = false)
      (hturn : ph.apartTurn (none : Option Unit) w.locks = .moved ph' l) :
      Step w (.entered c k.path k.exclusive) (w.advance c (some ph') l)
  | share {c : Nat} {k : LockEntry} {place : PathLocks.Place} {r : Exclusive α} {l : PathLocks α}
      (hk : w.calls[c]? = some k) (hph : k.phase = some (.waiting place)) (he : k.exclusive = true)
      (hturn : (LockCall.waiting place).exclusiveTurn none w.locks = .finished r l) :
      Step w (.shared c k.path r) (w.advance c none l)
  /-- The work of a call comes to `x`. -/
  | complete {c : Nat} {k : LockEntry} {place : PathLocks.Place} (x : α) {r : Exclusive α}
      {l : PathLocks α}
      (hk : w.calls[c]? = some k) (hph : k.phase = some (.working place)) (he : k.exclusive = true)
      (hturn : (LockCall.working place).exclusiveTurn (some x) w.locks = .finished r l) :
      Step w (.ended c k.path x r) (w.advance c none l)
  | leave {c : Nat} {k : LockEntry} {place : PathLocks.Place} {l : PathLocks α}
      (hk : w.calls[c]? = some k) (hph : k.phase = some (.working place))
      (he : k.exclusive = false)
      (hturn : (LockCall.working place).apartTurn (some ()) w.locks = .finished () l) :
      Step w (.left c k.path) (w.advance c none l)
  | drop {c : Nat} {k : LockEntry} {ph : LockCall} (hk : w.calls[c]? = some k)
      (hph : k.phase = some ph) :
      Step w (.dropped c k.path) (w.advance c none (ph.drop w.locks))

/-- A call is at its work on a path. -/
def Works (w : LockWorld α) (c : Nat) (p : Path) : Prop :=
  ∃ k place, w.calls[c]? = some k ∧ k.path = p ∧ k.phase = some (.working place)

end LockWorld

end CodeNav
