import CodeNav.Lock.Fair
import CodeNav.Path
import CodeNav.Turn

/-!
# Locks for paths

Work on a directory is done by one caller at a time. Whoever wants to work on a path takes a slot for
it, which lives as long as some caller holds on to it; a table says which slot was last made for a
path, without keeping it alive. In a slot, work is either *exclusive*, and then its outcome is kept
for those who wait, or it is only kept apart from other work. A caller who waited while somebody else
finished exclusive work shares the latest outcome and does nothing.

## Main definitions

* `PathLocks`: the slots, and the table of their paths
* `PathLocks.hold`, `PathLocks.release`: holding on to a slot
* `PathLocks.arrive`, `PathLocks.admission`, `PathLocks.finish`, `PathLocks.leave`: work in a slot
* `LockCall`: a call that waits in a slot and then works
-/

namespace CodeNav

/-- What is kept for those who hold on to a slot. -/
structure Slot (α : Type) where
  /-- How many callers hold on to the slot. -/
  holders : Nat
  gate : FairLock
  /-- The outcome of the latest exclusive work. -/
  last : Option α
  /-- How often exclusive work was finished. -/
  generation : Nat

namespace Slot

variable {α : Type}

/-- A slot that one caller holds on to, and in which nothing has been done. -/
def fresh : Slot α := ⟨1, .free, none, 0⟩

/-- Whether some caller holds on to the slot. -/
def isLive (s : Slot α) : Bool := s.holders ≠ 0

end Slot

/-- The slots, and which of them was last made for a path. -/
structure PathLocks (α : Type) where
  /-- Every slot that was made, by its number. -/
  slots : List (Slot α)
  /-- The number of the slot that was last made for a path. -/
  table : List (Path × Nat)

namespace PathLocks

variable {α : Type}

/-- No slot has been made. -/
def none : PathLocks α := ⟨[], []⟩

/-- The slot with a number. -/
def slot? (l : PathLocks α) (n : Nat) : Option (Slot α) := l.slots[n]?

/-- Whether some caller holds on to the slot with a number. -/
def isLive (l : PathLocks α) (n : Nat) : Bool := (l.slot? n).any Slot.isLive

/-- The number of the slot of a path, if some caller holds on to it. -/
def find? (l : PathLocks α) (p : Path) : Option Nat :=
  ((l.table.find? fun e => e.1.same p).map (·.2)).filter l.isLive

/-- Whether some caller holds on to the slot of a path. -/
def isHeld (l : PathLocks α) (p : Path) : Bool := (l.find? p).isSome

/-- The number of paths whose slot is held. -/
def active (l : PathLocks α) : Nat := (l.table.filter fun e => l.isLive e.2).length

/-- The locks with one slot changed. -/
def change (l : PathLocks α) (n : Nat) (f : Slot α → Slot α) : PathLocks α :=
  { l with slots := l.slots.modify n f }

/-- The locks with a new slot for a path. Slots that nobody holds on to are forgotten. -/
def make (l : PathLocks α) (p : Path) : PathLocks α where
  slots := l.slots ++ [.fresh]
  table := (l.table.filter fun e => l.isLive e.2) ++ [(p, l.slots.length)]

/-- One more caller holds on to the slot of a path, whose number it is told. -/
def hold (l : PathLocks α) (p : Path) : Nat × PathLocks α :=
  match l.find? p with
  | some n => (n, l.change n fun s => { s with holders := s.holders + 1 })
  | Option.none => (l.slots.length, l.make p)

/-- One caller less holds on to a slot. -/
def release (l : PathLocks α) (n : Nat) : PathLocks α :=
  l.change n fun s => { s with holders := s.holders - 1 }

/-- A place in the queue of a slot. -/
structure Place where
  slot : Nat
  ticket : Nat
  /-- How often exclusive work had been finished when the caller arrived. -/
  seen : Nat
  deriving DecidableEq

/-- Queues up in a slot, which the caller holds on to. -/
def arrive (l : PathLocks α) (n : Nat) : Place × PathLocks α :=
  match l.slot? n with
  | Option.none => (⟨n, 0, 0⟩, l)
  | some s => (⟨n, s.gate.enter.1, s.generation⟩, l.change n fun s => { s with gate := s.gate.enter.2 })

/-- What a place in a queue has come to. -/
inductive Admission (α : Type) where
  /-- Somebody else is before the caller. -/
  | notYet
  /-- The caller has the slot for itself. -/
  | granted
  /-- The caller has the slot, and exclusive work was finished since it arrived. -/
  | overtaken (outcome : α)

/-- What a place has come to. -/
def admission (l : PathLocks α) (place : Place) : Admission α :=
  match l.slot? place.slot with
  | Option.none => .notYet
  | some s =>
    if s.gate.isHolder place.ticket then
      match s.last with
      | some outcome => if s.generation ≠ place.seen then .overtaken outcome else .granted
      | Option.none => .granted
    else .notYet

/-- Gives a place back. -/
def leave (l : PathLocks α) (place : Place) : PathLocks α :=
  l.change place.slot fun s => { s with gate := s.gate.leave place.ticket }

/-- Keeps the outcome of exclusive work and gives the place back. -/
def finish (l : PathLocks α) (place : Place) (outcome : α) : PathLocks α :=
  l.change place.slot fun s =>
    { s with
      last := some outcome
      generation := s.generation + 1
      gate := s.gate.leave place.ticket }

end PathLocks

/-- How exclusive work ended for a caller. -/
inductive Exclusive (α : Type) where
  /-- The caller did the work. -/
  | ran (outcome : α)
  /-- Somebody else did it while the caller waited. -/
  | joined (outcome : α)
  deriving DecidableEq

/-- A call that waits in a slot and then works. -/
inductive LockCall where
  | waiting (place : PathLocks.Place)
  | working (place : PathLocks.Place)
  deriving DecidableEq

namespace LockCall

variable {α : Type}

/-- A call arrives in a slot, which its caller holds on to until the call is over. -/
def start (n : Nat) (l : PathLocks α) : LockCall × PathLocks α :=
  let (place, l) := l.arrive n
  (.waiting place, l)

/-- A call with exclusive work goes on; `outcome` is that of its work, once it is done. -/
def exclusiveTurn (outcome : Option α) (c : LockCall) (l : PathLocks α) :
    Turn (PathLocks α) LockCall (Exclusive α) :=
  match c with
  | waiting place =>
    match l.admission place with
    | .notYet => .parked none
    | .granted => .moved (working place) l
    | .overtaken outcome => .finished (.joined outcome) (l.leave place)
  | working place =>
    match outcome with
    | none => .parked none
    | some outcome => .finished (.ran outcome) (l.finish place outcome)

/-- A call whose work only has to be kept apart goes on. -/
def apartTurn {β : Type} (outcome : Option β) (c : LockCall) (l : PathLocks α) :
    Turn (PathLocks α) LockCall β :=
  match c with
  | waiting place =>
    match l.admission place with
    | .notYet => .parked none
    | _ => .moved (working place) l
  | working place =>
    match outcome with
    | none => .parked none
    | some outcome => .finished outcome (l.leave place)

/-- The place of a call. -/
def place : LockCall → PathLocks.Place
  | waiting place => place
  | working place => place

/-- A call is given up, whether it waits or works. -/
def drop (c : LockCall) (l : PathLocks α) : PathLocks α := l.leave c.place

end LockCall

end CodeNav
