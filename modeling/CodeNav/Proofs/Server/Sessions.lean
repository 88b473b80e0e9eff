import CodeNav.Proofs.Run
import CodeNav.Proofs.Server.Calls

/-!
# Sessions in use

Callers make calls on a session, in any number and any order, and give them up when they like. The
call that starts the server begins a handshake, which goes on by itself: it calls the launcher, waits
for what comes of it, and asks the server to initialize. The launcher may fail, the server writes and
takes what it likes and may end its output at any time, and time passes.

## Main definitions

* `SessionWorld`: a session, and the calls that were made on it
* `SessionEvent`: what is seen of calls, of the handshake and of the reader
* `SessionWorld.Step`: how callers, handshake, reader and server take turns
-/

namespace CodeNav

/-- What is seen of calls, of the handshake and of the reader. The calls are counted in the order in
which they begin. -/
inductive SessionEvent where
  /-- A call begins while a session is in some state; it may be over at once. -/
  | began (call : Nat) (what : SessionCall) (state : SessionState) (result : Option SessionResult)
  | returned (call : Nat) (what : SessionCall) (result : SessionResult)
  | dropped (call : Nat)
  /-- Somebody has looked at the state. -/
  | observed (state : SessionState)
  /-- The launcher is called. -/
  | launch (spec : LaunchSpec)
  /-- The launcher has come to something, and with it the handshake. -/
  | launched (handshake : Handshake)
  /-- The handshake has gone on after the launch. -/
  | shook (handshake : Handshake)
  /-- The reader has taken a message of the server. -/
  | heard (message : Json)
  /-- Something else. -/
  | other

namespace Handshake

/-- Whether a handshake is over. -/
def isOver : Handshake → Bool
  | ended _ => true
  | _ => false

/-- Whether a handshake was begun and is not over. -/
def isAlive : Handshake → Bool
  | launching _ => true
  | asking _ => true
  | _ => false

/-- Whether a handshake was begun. -/
def isBegun (h : Handshake) : Bool := h.isAlive || h.isOver

/-- Whether a handshake still has to call the launcher, when `launching?` tells what the launcher was
called for. -/
def hasToLaunch : Handshake → Option LaunchSpec → Bool
  | launching _, launching? => launching?.isNone
  | _, _ => false

end Handshake

namespace SessionEvent

/-- Whether a call has moved the session from its creation on to its handshake. -/
def starts : SessionEvent → Bool
  | began _ (.start _) .created _ => true
  | _ => false

/-- Whether the launcher is called. -/
def launches : SessionEvent → Bool
  | launch _ => true
  | _ => false

/-- Whether the handshake is over with an event. -/
def ends : SessionEvent → Bool
  | launched h => h.isOver
  | shook h => h.isOver
  | _ => false

/-- What a call answers with an event. -/
def gives : SessionEvent → Option (SessionCall × SessionResult)
  | began _ what _ (some r) => some (what, r)
  | returned _ what r => some (what, r)
  | _ => none

/-- What is seen of the reader with what it comes upon. -/
def ofReading : Client.Reading → SessionEvent
  | .message m => heard m
  | _ => other

end SessionEvent

/-- A call on a session; it has no phase when it is over. -/
structure SessionEntry where
  what : SessionCall
  phase : Option SessionPhase

/-- A session, with all calls that were made on it. -/
structure SessionWorld where
  session : Session
  calls : List SessionEntry
  /-- What the launcher was called for, until something comes of it. -/
  launching : Option LaunchSpec
  now : Nat

namespace SessionWorld

/-- Nothing has been asked of a session yet. -/
def create (key : RepositoryKey) (checkout : Path) (options : SessionOptions) : SessionWorld :=
  ⟨Session.create key checkout options, [], none, 0⟩

/-- The phase of a call that has begun, if it is not over at once. -/
def phaseOf : SessionPhase ⊕ SessionResult → Option SessionPhase
  | .inl phase => some phase
  | .inr _ => none

/-- The result of a call that has begun, if it is over at once. -/
def resultOf : SessionPhase ⊕ SessionResult → Option SessionResult
  | .inl _ => none
  | .inr r => some r

/-- How callers, handshake, reader and server take turns. -/
inductive Step (w : SessionWorld) : SessionEvent → SessionWorld → Prop
  | begin (what : SessionCall) :
      Step w
        (.began w.calls.length what w.session.state (resultOf (Session.begin what w.session).1))
        { w with
          session := (Session.begin what w.session).2
          calls := w.calls ++ [⟨what, phaseOf (Session.begin what w.session).1⟩] }
  | turn {n : Nat} {what : SessionCall} {phase phase' : SessionPhase} {s : Session}
      (fs : FileSystem) (hn : w.calls[n]? = some ⟨what, some phase⟩)
      (h : Session.turn fs w.now phase w.session = .moved phase' s) :
      Step w .other { w with session := s, calls := w.calls.set n ⟨what, some phase'⟩ }
  | finish {n : Nat} {what : SessionCall} {phase : SessionPhase} {r : SessionResult} {s : Session}
      (fs : FileSystem) (hn : w.calls[n]? = some ⟨what, some phase⟩)
      (h : Session.turn fs w.now phase w.session = .finished r s) :
      Step w (.returned n what r) { w with session := s, calls := w.calls.set n ⟨what, none⟩ }
  | drop {n : Nat} {what : SessionCall} {phase : SessionPhase}
      (hn : w.calls[n]? = some ⟨what, some phase⟩) :
      Step w (.dropped n)
        { w with session := Session.drop phase w.session, calls := w.calls.set n ⟨what, none⟩ }
  | observe : Step w (.observed w.session.observe.state) { w with session := w.session.observe }
  | launch {spec : LaunchSpec} (h : w.session.handshake = .launching spec)
      (hidle : w.launching = none) : Step w (.launch spec) { w with launching := some spec }
  | launched {spec : LaunchSpec} (started : Except SessionError Unit)
      (h : w.session.handshake = .launching spec) (hlaunching : w.launching = some spec) :
      Step w (.launched (w.session.launched started).handshake)
        { w with session := w.session.launched started, launching := none }
  | shake {s : Session} (h : w.session.handshakeTurn w.now = .moved () s) :
      Step w (.shook s.handshake) { w with session := s }
  | shaken {s : Session} (h : w.session.handshakeTurn w.now = .finished () s) :
      Step w (.shook s.handshake) { w with session := s }
  | read {e : SessionEvent} {c c' : Client} (hclient : w.session.client = some c)
      (h : c.readerTurn = some c') (he : .ofReading c.reading = e) :
      Step w e { w with session := w.session.withClient c' }
  | serve {c : Client} (bytes : List UInt8) (accepts ended : Bool)
      (hclient : w.session.client = some c) :
      Step w .other
        { w with
          session := w.session.withClient { c with wire := c.wire.serve bytes accepts ended } }
  | pass (d : Nat) : Step w .other { w with now := w.now + d }

end SessionWorld

end CodeNav
