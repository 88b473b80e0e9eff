import CodeNav.Turn

/-!
# A virtual clock

In a rehearsal nothing takes time except waiting. The strands of a world take turns, one after the
other and each of them one turn at a time, until all of them are parked; only then does the clock go
on, to the earliest time that a strand asked for.

## Main definitions

* `Play`: a world whose strands take turns
* `Play.settle`: turns until all strands are parked
* `Play.passTime`, `Play.runUntil`: turns and time
* `Job`: a call that runs in the background
-/

namespace CodeNav.Rehearsal

/-- What comes of the turn of a strand. -/
inductive Advance (W : Type) where
  | parked (until? : Option Nat)
  | moved (world : W)

/-- A world whose strands take turns. A turn is given the time. -/
structure Play (W S : Type) where
  strands : W → List S
  turn : Nat → S → W → Advance W

/-- A world at a time, in milliseconds. -/
structure Timed (W : Type) where
  now : Nat
  world : W

namespace Play

variable {W S : Type}

/-- A turn of every strand, one strand after the other: whether any of them went on, and the earliest
time at which one of the others wants to be asked again. -/
def round (p : Play W S) (now : Nat) (w : W) : Bool × Option Nat × W :=
  (p.strands w).foldl (fun (moved, next, w) s =>
    match p.turn now s w with
    | .parked t => (moved, earlier next t, w)
    | .moved w => (true, next, w)) (false, none, w)

/-- The turns of all strands until all of them are parked, and the earliest time at which one wants
to be asked again. -/
def settle (p : Play W S) (now : Nat) : Nat → W → Option Nat × W
  | 0, w => (none, w)
  | fuel + 1, w =>
    let (moved, next, w) := p.round now w
    if moved then settle p now fuel w else (next, w)

/-- How many rounds of turns there may be at one time. -/
def patience : Nat := 100000

/-- Lets time pass up to `stop`, or until something has happened. -/
def runUntil (p : Play W S) (happened : W → Bool) (stop : Nat) : Nat → Timed W → Timed W
  | 0, t => t
  | fuel + 1, t =>
    let (next, w) := p.settle t.now patience t.world
    if happened w then ⟨t.now, w⟩
    else
      match next with
      | some time =>
        if time ≤ stop then runUntil p happened stop fuel ⟨max t.now time, w⟩
        else ⟨stop, (p.settle stop patience w).2⟩
      | none => ⟨stop, (p.settle stop patience w).2⟩

/-- Lets some milliseconds pass. -/
def passTime (p : Play W S) (ms : Nat) (t : Timed W) : Timed W :=
  p.runUntil (fun _ => false) (t.now + ms) patience t

end Play

/-- A call that runs in the background. -/
inductive Job (φ ρ : Type) where
  | running (phase : φ)
  | ended (result : ρ)
  | dropped

namespace Job

variable {φ ρ : Type}

/-- Whether a call goes on. -/
def isRunning : Job φ ρ → Bool
  | running _ => true
  | _ => false

/-- The result of a call that has ended. -/
def result? : Job φ ρ → Option ρ
  | ended r => some r
  | _ => none

end Job

/-- How long a rehearsal waits for a call, in milliseconds. -/
def longestCall : Nat := 3600000

/-- What waiting for a call came to. -/
inductive Joined (ρ : Type) where
  | result (value : ρ)
  | aborted
  | hung

end CodeNav.Rehearsal
