/-!
# Turns of activities

Whatever takes time is an *activity*: it has a phase, and goes on by turns. A turn does what can be
done without waiting, changes the state that activities share, and leads to the next phase or to a
result. Other activities may take their turns in between, so every place at which an activity may
have to wait is the end of a turn. An activity that cannot go on is parked; it changes nothing, and
may name the time at which it should be asked again.

## Main definitions

* `Turn`: what comes of a turn
* `Turn.map`, `Turn.lift`: turns of an activity inside another one
* `earlier`: the earlier of two times, of which either may be missing
-/

namespace CodeNav

/-- What comes of a turn of an activity with phases `φ` and results `α` on a state `σ`. -/
inductive Turn (σ φ α : Type) where
  /-- Nothing can be done before something else happens, or before the given time. -/
  | parked (until? : Option Nat)
  | moved (phase : φ) (state : σ)
  | finished (result : α) (state : σ)

namespace Turn

variable {σ τ φ ψ α β : Type}

/-- The turn of an activity inside another one: its phases and results are turned into those of the
outer activity. -/
def map (phase : φ → ψ) (finish : α → σ → Turn σ ψ β) : Turn σ φ α → Turn σ ψ β
  | parked t => parked t
  | moved p s => moved (phase p) s
  | finished r s => finish r s

/-- The turn seen from a larger state. -/
def lift (put : σ → τ) : Turn σ φ α → Turn τ φ α
  | parked t => parked t
  | moved p s => moved p (put s)
  | finished r s => finished r (put s)

end Turn

/-- The earlier of two times. -/
def earlier : Option Nat → Option Nat → Option Nat
  | none, t => t
  | t, none => t
  | some a, some b => some (min a b)

end CodeNav
