import CodeNav.Browser.Service
import CodeNav.Frame.Basic

/-!
# The bridge to the browser

The browser sends a stream of framed messages. Each message that can be read gets a handler of its
own; the replies are framed and written one after the other, in the order in which the handlers end.
When the input ends, handlers that still go on are given up, all sessions are closed, and the
replies that are there are written.

## Main definitions

* `Bridge`: the streams, the handlers and what they share
* `Bridge.readTurn`, `Bridge.handlerTurn`, `Bridge.closeTurn`, `Bridge.writeTurn`: its strands
* `Bridge.output`: the bytes that were written
-/

namespace CodeNav

/-- How far a bridge has come. -/
inductive BridgePhase where
  | serving
  /-- The input has ended, and the sessions are being closed. -/
  | closing (eviction : Eviction)
  /-- The replies that are there are still to be written. -/
  | draining
  | ended

/-- A program that serves a browser. -/
structure Bridge where
  state : ServiceState
  framer : Framer
  /-- Bytes from the browser that are still unread. -/
  input : List UInt8
  inputEnded : Bool
  /-- The handlers by their numbers; nothing is left of one that has ended. -/
  handlers : List (Option Handler)
  /-- Replies that are still to be written. -/
  outbox : List Reply
  /-- The replies whose frames were written. -/
  written : List Json
  phase : BridgePhase

namespace Bridge

/-- A bridge before its first message. -/
def opening (s : ServiceState) : Bridge := ⟨s, .fresh, [], false, [], [], [], .serving⟩

/-- How many bytes are read at once. -/
def readSize : Nat := 65536

/-- The handlers of messages, without those that cannot be read. -/
def handlersOf (values : List Json) : List (Option Handler) :=
  values.filterMap fun v => (PageMessage.ofJson v).toOption.map fun m => some (Handler.begin m)

/-- The bridge after some bytes of the input. -/
def accept (b : Bridge) (bytes : List UInt8) : Bridge :=
  let (values, framer) := b.framer.push bytes
  { b with framer := framer, handlers := b.handlers ++ handlersOf values }

/-- What handlers share after all of them were given up. -/
def dropAll (handlers : List (Option Handler)) (s : ServiceState) : ServiceState :=
  handlers.foldl (fun s h => match h with
    | some h => h.drop s
    | none => s) s

/-- The bridge when its input has ended. -/
def beginClosing (b : Bridge) : Bridge :=
  let s := dropAll b.handlers b.state
  let b := { b with handlers := b.handlers.map fun _ => none }
  match Eviction.begin .all s.sessions with
  | (.inl e, r) => { b with state := s.withSessions r, phase := .closing e }
  | (.inr _, r) => { b with state := s.withSessions r, phase := .draining }

/-- The reader goes on: it takes the next bytes, or notices that the input has ended. Nothing comes of
it when there is nothing to read. -/
def readTurn (b : Bridge) : Option Bridge :=
  match b.phase with
  | .serving =>
    match b.input with
    | [] => if b.inputEnded then some b.beginClosing else none
    | bytes => some ({ b with input := bytes.drop readSize }.accept (bytes.take readSize))
  | _ => none

/-- A handler goes on. When it ends, its reply is one of those to be written. -/
def handlerTurn (v : Service) (now n strand : Nat) (news : HandlerNews) (b : Bridge) :
    Turn Bridge Unit Unit :=
  match (b.handlers[n]?).join with
  | none => .parked none
  | some h =>
    match h.turn v now strand news b.state with
    | .parked t => .parked t
    | .moved h s => .moved () { b with state := s, handlers := b.handlers.set n (some h) }
    | .finished reply s =>
      .moved () { b with
        state := s
        handlers := b.handlers.set n none
        outbox := b.outbox ++ [reply] }

/-- Closing the session at a position goes on, after the input has ended. -/
def closeTurn (now strand : Nat) (b : Bridge) : Turn Bridge Unit Unit :=
  match b.phase with
  | .closing e =>
    match e.turn b.state.fs now strand b.state.sessions with
    | .parked t => .parked t
    | .moved e r => .moved () { b with state := b.state.withSessions r, phase := .closing e }
    | .finished _ r => .moved () { b with state := b.state.withSessions r, phase := .draining }
  | _ => .parked none

/-- The writer goes on: it writes the next reply, unless that is too long for a frame. Nothing comes
of it when there is nothing to write. -/
def writeTurn (b : Bridge) : Option Bridge :=
  match b.outbox with
  | reply :: rest =>
    let value := reply.toJson
    some { b with
      outbox := rest
      written := if (Frame.encode value).isSome then b.written ++ [value] else b.written }
  | [] =>
    match b.phase with
    | .draining => some { b with phase := .ended }
    | _ => none

/-- The bytes that were written. -/
def output (b : Bridge) : List UInt8 :=
  b.written.flatMap fun value => (Frame.encode value).getD []

/-- Whether the bridge has ended. -/
def isEnded (b : Bridge) : Bool :=
  match b.phase with
  | .ended => true
  | _ => false

end Bridge

end CodeNav
