import CodeNav.Server.Session

/-!
# The sessions of a program

A program keeps at most one session for a repository. A session is made when one is asked for and
there is none that is open; it starts no server by itself. A session that is taken out is closed,
and never handed out again.

Every session that was ever made has a number, by which calls find it even after it was taken out.

## Main definitions

* `Sessions`: the sessions and the table of those that may be handed out
* `Sessions.get`, `Sessions.find?`: handing out
* `EvictionCall`, `Eviction`: taking sessions out and closing them
* `Sessions.handshakeTurn`, `Sessions.readerTurn`: what goes on in a session by itself
-/

namespace CodeNav

/-- All sessions of a program. -/
structure Sessions where
  /-- Every session that was made, by its number. -/
  all : List Session
  /-- The number of the session that is handed out for a repository. -/
  table : List (RepositoryKey × Nat)
  /-- The folder of all checkouts. -/
  root : Path
  options : SessionOptions

namespace Sessions

/-- A program without sessions. -/
def none (root : Path) (options : SessionOptions) : Sessions := ⟨[], [], root, options⟩

/-- The session with a number. -/
def session? (r : Sessions) (n : Nat) : Option Session := r.all[n]?

/-- The sessions with one of them changed. -/
def change (r : Sessions) (n : Nat) (f : Session → Session) : Sessions :=
  { r with all := r.all.modify n f }

/-- The sessions with another state of one of them. -/
def put (r : Sessions) (n : Nat) (s : Session) : Sessions :=
  { r with all := r.all.set n s }

/-- The number of the session that is handed out for a repository, if there is one. -/
def find? (r : Sessions) (key : RepositoryKey) : Option Nat :=
  r.table.lookup key

/-- The table without a repository. -/
def without (r : Sessions) (key : RepositoryKey) : Sessions :=
  { r with table := r.table.filter fun e => e.1 ≠ key }

/-- Makes a session for a repository. -/
def make (r : Sessions) (key : RepositoryKey) : Nat × Sessions :=
  let n := r.all.length
  let s := Session.create key (key.checkoutPath r.root) r.options
  (n, { r.without key with
    all := r.all ++ [s]
    table := (r.without key).table ++ [(key, n)] })

/-- Hands out the session of a repository. A new one is made when there is none, or when a look at
the one that there is finds it closed. -/
def get (r : Sessions) (key : RepositoryKey) : Nat × Sessions :=
  match r.find? key with
  | Option.none => r.make key
  | some n =>
    let r := r.change n Session.observe
    match r.session? n with
    | Option.none => r.make key
    | some s => if s.state = .closed then r.make key else (n, r)

/-- Whether a session is handed out for a repository. -/
def contains (r : Sessions) (key : RepositoryKey) : Bool :=
  (r.find? key).isSome

/-- The number of repositories with a session. -/
def size (r : Sessions) : Nat :=
  r.table.length

/-- The handshake of a session goes on. -/
def handshakeTurn (now n : Nat) (r : Sessions) : Turn Sessions Unit Unit :=
  match r.session? n with
  | Option.none => .parked Option.none
  | some s => (s.handshakeTurn now).lift (r.put n)

/-- The reader of a session goes on, if there is something to do. -/
def readerTurn (n : Nat) (r : Sessions) : Option Sessions :=
  (r.session? n).bind fun s => s.client.bind fun c =>
    c.readerTurn.map fun c => r.put n (s.withClient c)

/-- A call on a session begins. -/
def beginOn (n : Nat) (call : SessionCall) (r : Sessions) : (SessionPhase ⊕ SessionResult) × Sessions :=
  match r.session? n with
  | Option.none => (.inr (.error .closed), r)
  | some s =>
    let (phase, s) := s.begin call
    (phase, r.put n s)

/-- A call on a session goes on. -/
def turnOn (fs : FileSystem) (now n : Nat) (phase : SessionPhase) (r : Sessions) :
    Turn Sessions SessionPhase SessionResult :=
  match r.session? n with
  | Option.none => .finished (.error .closed) r
  | some s => (s.turn fs now phase).lift (r.put n)

/-- A call on a session is given up. -/
def dropOn (n : Nat) (phase : SessionPhase) (r : Sessions) : Sessions :=
  r.change n (·.drop phase)

end Sessions

/-- What may be taken out. -/
inductive EvictionCall where
  | one (key : RepositoryKey)
  | all

/-- How far a session that was taken out has been closed. -/
inductive Closing where
  | notBegun
  | going (phase : SessionPhase)
  | over

/-- The sessions that a call has taken out and is closing, all at the same time. -/
structure Eviction where
  closings : List (Nat × Closing)

namespace Eviction

/-- Whether all sessions are closed. -/
def isOver (e : Eviction) : Bool :=
  e.closings.all fun c => match c.2 with
    | .over => true
    | _ => false

/-- One session is taken out, and closing it begins. The answer tells whether there was one. -/
def beginOne (key : RepositoryKey) (r : Sessions) : (Eviction ⊕ Bool) × Sessions :=
  match r.find? key with
  | none => (.inr false, r)
  | some n =>
    let (phase, r) := (r.without key).beginOn n .close
    match phase with
    | .inl phase => (.inl ⟨[(n, .going phase)]⟩, r)
    | .inr _ => (.inr true, r)

/-- All sessions are taken out; each of them will be closed. -/
def beginAll (r : Sessions) : (Eviction ⊕ Bool) × Sessions :=
  if r.table = [] then (.inr true, r)
  else (.inl ⟨r.table.map fun e => (e.2, .notBegun)⟩, { r with table := [] })

/-- Sessions are taken out. -/
def begin : EvictionCall → Sessions → (Eviction ⊕ Bool) × Sessions
  | .one key => beginOne key
  | .all => beginAll

/-- The eviction with a session that has come further. -/
def advance (e : Eviction) (i n : Nat) (c : Closing) (r : Sessions) :
    Turn Sessions Eviction Bool :=
  let e : Eviction := ⟨e.closings.set i (n, c)⟩
  if e.isOver then .finished true r else .moved e r

/-- Closing the session at a position goes on. -/
def turn (fs : FileSystem) (now i : Nat) (e : Eviction) (r : Sessions) :
    Turn Sessions Eviction Bool :=
  match e.closings[i]? with
  | none => .parked none
  | some (_, .over) => .parked none
  | some (n, .notBegun) =>
    match r.beginOn n .close with
    | (.inl phase, r) => e.advance i n (.going phase) r
    | (.inr _, r) => e.advance i n .over r
  | some (n, .going phase) =>
    (r.turnOn fs now n phase).map (fun phase => ⟨e.closings.set i (n, .going phase)⟩)
      fun _ r => e.advance i n .over r

/-- Taking out and closing the session of a repository goes on; `e` tells how far it has come, once
it has begun. -/
def turnFor (fs : FileSystem) (now : Nat) (key : RepositoryKey) (e : Option Eviction)
    (r : Sessions) : Turn Sessions Eviction Bool :=
  match e with
  | some e => e.turn fs now 0 r
  | none =>
    match beginOne key r with
    | (.inl e, r) => .moved e r
    | (.inr any, r) => .finished any r

/-- Closing is given up. -/
def drop (e : Eviction) (r : Sessions) : Sessions :=
  e.closings.foldl (fun r c => match c.2 with
    | .going phase => r.dropOn c.1 phase
    | _ => r) r

end Eviction

end CodeNav
