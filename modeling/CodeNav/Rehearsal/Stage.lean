import CodeNav.Rehearsal.Clock

/-!
# Calls on a stage

A stage is a state with calls that run on it, some of them in the background and known by a name,
and with strands of its own. A rehearsal makes calls, waits for them, asks whether they have ended
or drops them, and lets a millisecond pass after each of these steps.

## Main definitions

* `Stage`: how calls and the stage's own strands take turns
* `Cast`: a state with its calls
* `Stage.call`, `Stage.join`, `Stage.isDone`, `Stage.abort`, `Stage.sleep`: the steps
* `Heard`: what a step is answered
-/

namespace CodeNav.Rehearsal

/-- How calls with phases `φ` and results `ρ` take turns on a state `σ` that also has strands `S` of
its own. A phase may have several strands. -/
structure Stage (σ φ ρ S : Type) where
  own : σ → List S
  ownTurn : Nat → S → σ → Advance σ
  width : φ → Nat
  turn : Nat → Nat → φ → σ → Turn σ φ ρ
  drop : φ → σ → σ

/-- A state with its calls and the names of those in the background. -/
structure Cast (σ φ ρ : Type) where
  state : σ
  jobs : List (Job φ ρ)
  names : List (String × Nat)

/-- What a step is answered. -/
inductive Heard (ρ : Type) where
  | started
  | result (value : ρ)
  | hung
  | aborted
  | truth (value : Bool)
  | nothing

namespace Stage

variable {σ φ ρ S : Type}

/-- The strands of all calls and of the stage itself. -/
def strands (stage : Stage σ φ ρ S) (c : Cast σ φ ρ) : List ((Nat × Nat) ⊕ S) :=
  (c.jobs.zipIdx.flatMap fun (job, id) =>
    match job with
    | .running phase => (List.range (stage.width phase)).map fun i => .inl (id, i)
    | _ => [])
  ++ (stage.own c.state).map .inr

/-- The turn of a strand. -/
def strandTurn (stage : Stage σ φ ρ S) (now : Nat) (s : (Nat × Nat) ⊕ S) (c : Cast σ φ ρ) :
    Advance (Cast σ φ ρ) :=
  match s with
  | .inr s =>
    match stage.ownTurn now s c.state with
    | .parked t => .parked t
    | .moved state => .moved { c with state := state }
  | .inl (id, strand) =>
    match c.jobs[id]? with
    | some (.running phase) =>
      match stage.turn now strand phase c.state with
      | .parked t => .parked t
      | .moved phase state =>
        .moved { c with state := state, jobs := c.jobs.set id (.running phase) }
      | .finished result state =>
        .moved { c with state := state, jobs := c.jobs.set id (.ended result) }
    | _ => .parked none

/-- The stage as a world whose strands take turns. -/
def play (stage : Stage σ φ ρ S) : Play (Cast σ φ ρ) ((Nat × Nat) ⊕ S) :=
  ⟨stage.strands, stage.strandTurn⟩

/-- The stage after a millisecond. -/
def afterwards (stage : Stage σ φ ρ S) (t : Timed (Cast σ φ ρ)) : Timed (Cast σ φ ρ) :=
  stage.play.passTime 1 t

/-- The call with a number. -/
def jobOf (c : Cast σ φ ρ) (id : Nat) : Job φ ρ :=
  (c.jobs[id]?).getD .dropped

/-- Waits for a call. -/
def await (stage : Stage σ φ ρ S) (id : Nat) (t : Timed (Cast σ φ ρ)) :
    Timed (Cast σ φ ρ) :=
  stage.play.runUntil (fun c => !(jobOf c id).isRunning) (t.now + longestCall) Play.patience t

/-- Drops a call. -/
def dropJob (stage : Stage σ φ ρ S) (id : Nat) (c : Cast σ φ ρ) : Cast σ φ ρ :=
  match jobOf c id with
  | .running phase =>
    { c with state := stage.drop phase c.state, jobs := c.jobs.set id .dropped }
  | _ => c

/-- Begins a call. -/
def start (begin : σ → (φ ⊕ ρ) × σ) (c : Cast σ φ ρ) : Nat × Cast σ φ ρ :=
  let (job, state) := begin c.state
  let job := match job with
    | .inl phase => Job.running phase
    | .inr result => .ended result
  (c.jobs.length, { c with state := state, jobs := c.jobs ++ [job] })

/-- Makes a call, in the background when it is given a name. A call that takes too long is
dropped. -/
def call (stage : Stage σ φ ρ S) (name : Option String) (begin : σ → (φ ⊕ ρ) × σ)
    (t : Timed (Cast σ φ ρ)) : Heard ρ × Timed (Cast σ φ ρ) :=
  let (id, c) := start begin t.world
  match name with
  | some name =>
    (.started, stage.afterwards ⟨t.now, { c with names := (name, id) :: c.names }⟩)
  | none =>
    let t := stage.await id ⟨t.now, c⟩
    match jobOf t.world id with
    | .ended r => (.result r, stage.afterwards t)
    | .dropped => (.aborted, stage.afterwards t)
    | .running _ => (.hung, stage.afterwards ⟨t.now, stage.dropJob id t.world⟩)

/-- Waits for a call in the background. -/
def join (stage : Stage σ φ ρ S) (name : String) (t : Timed (Cast σ φ ρ)) :
    Heard ρ × Timed (Cast σ φ ρ) :=
  match t.world.names.lookup name with
  | none => (.nothing, stage.afterwards t)
  | some id =>
    let t := stage.await id t
    match jobOf t.world id with
    | .ended r => (.result r, stage.afterwards t)
    | .dropped => (.aborted, stage.afterwards t)
    | .running _ => (.hung, stage.afterwards t)

/-- Whether a call in the background has ended. -/
def isDone (stage : Stage σ φ ρ S) (name : String) (t : Timed (Cast σ φ ρ)) :
    Heard ρ × Timed (Cast σ φ ρ) :=
  match t.world.names.lookup name with
  | none => (.nothing, stage.afterwards t)
  | some id => (.truth (!(jobOf t.world id).isRunning), stage.afterwards t)

/-- Drops a call in the background. -/
def abort (stage : Stage σ φ ρ S) (name : String) (t : Timed (Cast σ φ ρ)) :
    Heard ρ × Timed (Cast σ φ ρ) :=
  match t.world.names.lookup name with
  | none => (.nothing, stage.afterwards t)
  | some id => (.nothing, stage.afterwards ⟨t.now, stage.dropJob id t.world⟩)

/-- Lets time pass. -/
def sleep (stage : Stage σ φ ρ S) (ms : Nat) (t : Timed (Cast σ φ ρ)) :
    Heard ρ × Timed (Cast σ φ ρ) :=
  (.nothing, stage.afterwards (stage.play.passTime ms t))

/-- A step that changes the state at once. -/
def atOnce {α : Type} (stage : Stage σ φ ρ S) (f : σ → α × σ) (t : Timed (Cast σ φ ρ)) :
    α × Timed (Cast σ φ ρ) :=
  let (a, state) := f t.world.state
  (a, stage.afterwards ⟨t.now, { t.world with state := state }⟩)

end Stage

/-- A state without calls at time zero. -/
def Timed.opening {σ φ ρ : Type} (state : σ) : Timed (Cast σ φ ρ) :=
  ⟨0, ⟨state, [], []⟩⟩

end CodeNav.Rehearsal
