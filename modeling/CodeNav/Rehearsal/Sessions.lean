import CodeNav.Rehearsal.Servers
import CodeNav.Rehearsal.Stage

/-!
# Rehearsing sessions

Sessions with scripted servers, on a file system of their own.

## Main definitions

* `SessionStage`: the sessions, the servers and the file system
* `SessionStage.stage`: how calls and servers take turns
* `SessionStage.look`: what is seen after a step
-/

namespace CodeNav.Rehearsal

/-- Sessions, their servers and their files. -/
structure SessionStage where
  fs : FileSystem
  sessions : Sessions
  servers : Servers

/-- A call on a session, or on all of them. -/
inductive SessionWork where
  | call (session : Nat) (phase : SessionPhase)
  | eviction (call : EvictionCall) (e : Eviction)

/-- How a call ended. -/
inductive SessionOutcome where
  | answered (result : SessionResult)
  /-- Whether there was a session to be taken out. -/
  | evicted (call : EvictionCall) (any : Bool)

namespace SessionStage

/-- How many strands a call has. -/
def width : SessionWork → Nat
  | .call _ _ => 1
  | .eviction _ e => e.closings.length

/-- The stage with another state of its sessions. -/
def withSessions (s : SessionStage) (r : Sessions) : SessionStage := { s with sessions := r }

/-- The turn of a call. -/
def workTurn (now strand : Nat) (w : SessionWork) (s : SessionStage) :
    Turn SessionStage SessionWork SessionOutcome :=
  match w with
  | .call n phase =>
    ((s.sessions.turnOn s.fs now n phase).lift s.withSessions).map (.call n)
      fun r s => .finished (.answered r) s
  | .eviction call e =>
    ((e.turn s.fs now strand s.sessions).lift s.withSessions).map (.eviction call)
      fun any s => .finished (.evicted call any) s

/-- How calls and servers take turns. -/
def stage : Stage SessionStage SessionWork SessionOutcome Servers.Strand where
  own s := Servers.strands (s.sessions, s.servers)
  ownTurn now strand s :=
    match Servers.strandTurn s.fs now strand (s.sessions, s.servers) with
    | .parked t => .parked t
    | .moved (r, servers) => .moved { s with sessions := r, servers := servers }
  width := width
  turn := workTurn
  drop w s :=
    s.withSessions (match w with
      | .call n phase => s.sessions.dropOn n phase
      | .eviction _ e => e.drop s.sessions)

/-- A call on a session. -/
def call (n : Nat) (c : SessionCall) (s : SessionStage) :
    (SessionWork ⊕ SessionOutcome) × SessionStage :=
  match s.sessions.beginOn n c with
  | (.inl phase, r) => (.inl (.call n phase), s.withSessions r)
  | (.inr result, r) => (.inr (.answered result), s.withSessions r)

/-- Sessions are taken out and closed. -/
def evict (c : EvictionCall) (s : SessionStage) : (SessionWork ⊕ SessionOutcome) × SessionStage :=
  match Eviction.begin c s.sessions with
  | (.inl e, r) => (.inl (.eviction c e), s.withSessions r)
  | (.inr any, r) => (.inr (.evicted c any), s.withSessions r)

/-- The session of a repository. -/
def get (key : RepositoryKey) (s : SessionStage) : Nat × SessionStage :=
  let (n, r) := s.sessions.get key
  (n, s.withSessions r)

/-- Gives an order to a server. -/
def order (launch : Option Nat) (o : Order) (s : SessionStage) : Bool × SessionStage :=
  let (there, servers) := s.servers.order launch o
  (there, { s with servers := servers })

/-- A look at all sessions, which notices servers that have gone: their states, and what happened
since the last look. -/
def look (s : SessionStage) :
    List SessionState × (List LaunchSpec × List (Nat × List Json)) × SessionStage :=
  let all := s.sessions.all.map Session.observe
  let (news, servers) := s.servers.news
  (all.map (·.state), news,
    { s with sessions := { s.sessions with all := all }, servers := servers })

end SessionStage

end CodeNav.Rehearsal
