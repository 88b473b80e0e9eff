import CodeNav.Lock.Paths
import CodeNav.Rehearsal.Stage

/-!
# Rehearsing locks

Callers hold on to the slots of paths under names, or do work that takes some time and comes to a
number.

## Main definitions

* `LockStage`: the locks and the slots held by name
* `LockStage.stage`: how callers take turns
-/

namespace CodeNav.Rehearsal

/-- The locks, and the names under which slots are held. -/
structure LockStage where
  locks : PathLocks Int
  held : List (String × Nat)

/-- A caller: the slot it holds on to, whether its outcome is kept for others, and when the work that
has been begun will be done. -/
structure LockWorker where
  slot : Nat
  call : LockCall
  exclusive : Bool
  ms : Nat
  value : Int
  doneAt : Option Nat

/-- How a call ended. -/
inductive LockResult where
  | ran (value : Int)
  | joined (value : Int)
  | locked (value : Int)

namespace LockStage

/-- The stage before the first step. -/
def opening : LockStage := ⟨.none, []⟩

/-- The turn of a caller. -/
def workerTurn (now : Nat) (w : LockWorker) (s : LockStage) :
    Turn LockStage LockWorker LockResult :=
  let outcome := match w.doneAt with
    | some t => if t ≤ now then some w.value else none
    | none => none
  let put (l : PathLocks Int) : LockStage := { s with locks := l }
  let done (r : LockResult) (s : LockStage) : Turn LockStage LockWorker LockResult :=
    .finished r { s with locks := s.locks.release w.slot }
  let begun (c : LockCall) : LockWorker := { w with call := c, doneAt := some (now + w.ms) }
  let patient {φ ρ : Type} (t : Turn LockStage φ ρ) : Turn LockStage φ ρ := match t with
    | .parked _ => .parked w.doneAt
    | t => t
  if w.exclusive then
    patient (((w.call.exclusiveTurn outcome s.locks).lift put).map begun fun
      | .ran v => done (.ran v)
      | .joined v => done (.joined v))
  else
    patient (((w.call.apartTurn outcome s.locks).lift put).map begun fun v => done (.locked v))

/-- How callers take turns. -/
def stage : Stage LockStage LockWorker LockResult Empty where
  own _ := []
  ownTurn _ s _ := nomatch s
  width _ := 1
  turn now _ w s := workerTurn now w s
  drop w s := { s with locks := (w.call.drop s.locks).release w.slot }

/-- A caller arrives. -/
def work (path : Path) (exclusive : Bool) (ms : Nat) (value : Int) (s : LockStage) :
    (LockWorker ⊕ LockResult) × LockStage :=
  let (slot, locks) := s.locks.hold path
  let (call, locks) := LockCall.start slot locks
  (.inl ⟨slot, call, exclusive, ms, value, none⟩, { s with locks := locks })

/-- Lets go of the slot held under a name, and tells whether there was one. -/
def letGo (name : String) (s : LockStage) : Bool × LockStage :=
  match s.held.lookup name with
  | none => (false, s)
  | some slot => (true, ⟨s.locks.release slot, s.held.filter fun h => h.1 ≠ name⟩)

/-- Holds on to the slot of a path under a name, in place of another one of that name, and tells
which names held it before. -/
def takeSlot (name : String) (path : Path) (s : LockStage) : List String × LockStage :=
  let (slot, locks) := s.locks.hold path
  let before := (s.held.filter fun h => h.2 = slot).map (·.1)
  let (_, s) := letGo name { s with locks := locks }
  (before.mergeSort (fun a b => !(b < a)), { s with held := s.held ++ [(name, slot)] })

end LockStage

end CodeNav.Rehearsal
