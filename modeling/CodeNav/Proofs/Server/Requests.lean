import CodeNav.Proofs.Run
import CodeNav.Proofs.Server.Client

/-!
# Requests to a server

Callers make requests with a client, each with its own time limit, and give them up when they like.
Others send messages that have no answer. The reader of the client takes the server's messages one by
one. The server writes whatever it likes, takes messages or does not, and ends its output at any time;
and time passes.

## Main definitions

* `Exchange`: a client, the requests that were made with it, and the time
* `RequestEvent`: what is seen of requests and of the reader
* `Exchange.Step`: how callers, reader and server take turns
* `Exchange.Waiting`: a request that still waits for its answer
-/

namespace CodeNav

/-- What is seen of requests and of the reader. The requests are counted in the order in which they
were made; the number that a client gives to a request is another matter. -/
inductive RequestEvent where
  | asked (request id : Nat) (method : String) (limit : Option Nat)
  /-- A request could not be made. -/
  | refused (error : SessionError)
  /-- A request was written at a time, and its limit begins. -/
  | written (request now : Nat)
  /-- A request returned to its caller at a time. -/
  | returned (request now : Nat) (result : Except SessionError Json)
  | dropped (request : Nat)
  /-- The reader has taken a message of the server. -/
  | heard (message : Json)
  /-- The reader has come to the end of the server's output. -/
  | ended
  /-- Something else. -/
  | other

namespace RequestEvent

/-- The request that is made with an event. -/
def begins : RequestEvent → Option Nat
  | asked n _ _ _ => some n
  | _ => none

/-- The number that a client gives away with an event. -/
def numbers : RequestEvent → Option Nat
  | asked _ id _ _ => some id
  | _ => none

/-- The request that is over after an event. -/
def closes : RequestEvent → Option Nat
  | returned n _ _ => some n
  | dropped n => some n
  | _ => none

/-- What an event makes of the request with a number: it has its answer, or will never get one. -/
def settles (id : Nat) : RequestEvent → Option (Option Json)
  | heard m => if Client.answered? m = some (id : Int) then some (some m) else none
  | ended => some none
  | _ => none

/-- What is seen of the reader with what it comes upon. -/
def ofReading : Client.Reading → RequestEvent
  | .nothing => other
  | .message m => heard m
  | .ended => ended

end RequestEvent

/-- A client with all requests that were made and all other messages that were sent; those that are
over are nothing any more. -/
structure Exchange where
  client : Client
  requests : List (Option ServerCall)
  notes : List (Option Note)
  now : Nat

namespace Exchange

/-- Nothing has been asked yet. -/
def start (c : Client) : Exchange := ⟨c, [], [], 0⟩

/-- How callers, reader and server take turns. -/
inductive Step (w : Exchange) : RequestEvent → Exchange → Prop
  | ask {method : String} {params : Json} {limit : Option Nat} {r : ServerCall} {c : Client}
      (h : ServerCall.start method params limit w.client = .ok (r, c)) :
      Step w (.asked w.requests.length r.id method limit)
        { w with client := c, requests := w.requests ++ [some r] }
  | refuse {method : String} {params : Json} {limit : Option Nat} {e : SessionError}
      (h : ServerCall.start method params limit w.client = .error e) : Step w (.refused e) w
  | write {n : Nat} {r r' : ServerCall} {c : Client} (hn : w.requests[n]? = some (some r))
      (h : r.turn w.now w.client = .moved r' c) :
      Step w (.written n w.now) { w with client := c, requests := w.requests.set n (some r') }
  | finish {n : Nat} {r : ServerCall} {result : Except SessionError Json} {c : Client}
      (hn : w.requests[n]? = some (some r)) (h : r.turn w.now w.client = .finished result c) :
      Step w (.returned n w.now result) { w with client := c, requests := w.requests.set n none }
  | drop {n : Nat} {r : ServerCall} (hn : w.requests[n]? = some (some r)) :
      Step w (.dropped n)
        { w with client := r.drop w.client, requests := w.requests.set n none }
  | note {method : String} {params : Json} {n : Note} {c : Client}
      (h : Note.start method params w.client = .ok (n, c)) :
      Step w .other { w with client := c, notes := w.notes ++ [some n] }
  | noteTurn {i : Nat} {n : Note} {r : Except SessionError Unit} {c : Client}
      (hi : w.notes[i]? = some (some n)) (h : n.turn w.client = .finished r c) :
      Step w .other { w with client := c, notes := w.notes.set i none }
  | noteDrop {i : Nat} {n : Note} (hi : w.notes[i]? = some (some n)) :
      Step w .other { w with client := n.drop w.client, notes := w.notes.set i none }
  | read {e : RequestEvent} {c : Client} (h : w.client.readerTurn = some c)
      (he : .ofReading w.client.reading = e) : Step w e { w with client := c }
  | serve (bytes : List UInt8) (accepts ended : Bool) :
      Step w .other
        { w with
          client := { w.client with wire := w.client.wire.serve bytes accepts ended } }
  | pass (d : Nat) : Step w .other { w with now := w.now + d }

/-- What has become of the request with a number. -/
def settlement (id : Nat) (t : List RequestEvent) : Option (Option Json) :=
  t.findSome? (RequestEvent.settles id)

/-- A request still waits for its answer: it was made, and since then no message has answered it, the
server's output has not ended, and it has not returned or been given up. -/
def Waiting (t : List RequestEvent) (n id : Nat) : Prop :=
  ∃ first method limit later, t = first ++ .asked n id method limit :: later ∧
    settlement id later = none ∧ ∀ e ∈ later, e.closes ≠ some n

end Exchange

end CodeNav
