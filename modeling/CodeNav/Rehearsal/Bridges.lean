import CodeNav.Browser.Bridge
import CodeNav.Rehearsal.Commands
import CodeNav.Rehearsal.Servers
import CodeNav.Rehearsal.Stage

/-!
# Rehearsing the bridge

A browser that writes messages and reads replies, with scripted servers, commands that follow rules
and a list of the libraries that are found.

## Main definitions

* `BridgeStage`: the bridge and the world around it
* `BridgeStage.stage`: how everything takes turns
* `BridgeStage.write`, `BridgeStage.reply`, `BridgeStage.finish`, `BridgeStage.takeReplies`: what the
  browser does
-/

namespace CodeNav.Rehearsal

/-- The bridge and the world around it. -/
structure BridgeStage where
  service : Service
  bridge : Bridge
  servers : Servers
  workshop : Workshop
  /-- The libraries that are found, by their platforms. -/
  libraries : List (String × String)
  /-- The commands that are being run for handlers. -/
  runs : List (Nat × CommandRun)
  /-- How many replies the browser has read. -/
  taken : Nat

/-- What the browser waits for. -/
inductive BrowserWait where
  | reply
  | finish

/-- What the browser has waited for. -/
inductive BrowserHeard where
  /-- A reply, or none after the bridge has ended. -/
  | reply (value : Option Json)
  | ended

/-- What goes on by itself. -/
inductive BridgeStrand where
  | read
  | write
  | handler (n strand : Nat)
  | close (strand : Nat)
  | server (strand : Servers.Strand)

namespace BridgeStage

/-- The sessions and servers. -/
def network (s : BridgeStage) : Sessions × Servers := (s.bridge.state.sessions, s.servers)

/-- The stage with another bridge. -/
def withBridge (s : BridgeStage) (b : Bridge) : BridgeStage := { s with bridge := b }

/-- The stage with other sessions and servers. -/
def withNetwork (s : BridgeStage) (w : Sessions × Servers) : BridgeStage :=
  { s with
    bridge := { s.bridge with state := s.bridge.state.withSessions w.1 }
    servers := w.2 }

/-- Everything that goes on by itself. -/
def strands (s : BridgeStage) : List BridgeStrand :=
  let handlers := s.bridge.handlers.zipIdx.flatMap fun (h, n) =>
    match h with
    | some h => (List.range h.width).map (.handler n)
    | none => []
  let closings := match s.bridge.phase with
    | .closing e => (List.range e.closings.length).map .close
    | _ => []
  .read :: handlers ++ closings ++ [.write] ++ (Servers.strands s.network).map .server

/-- A turn of the bridge as a turn of the stage. -/
def advance (s : BridgeStage) (t : Turn Bridge Unit Unit) : Advance BridgeStage :=
  match t with
  | .parked t => .parked t
  | .moved _ b => .moved (s.withBridge b)
  | .finished _ b => .moved (s.withBridge b)

/-- The turn of a handler with some news. -/
def tell (now n strand : Nat) (news : HandlerNews) (s : BridgeStage) : Advance BridgeStage :=
  s.advance (s.bridge.handlerTurn s.service now n strand news)

/-- The turn of a handler, with what the world does for it. -/
def handlerTurn (now n strand : Nat) (s : BridgeStage) : Advance BridgeStage :=
  match (s.bridge.handlers[n]?).join with
  | none => .parked none
  | some h =>
    match h.wants with
    | .nothing => tell now n strand .nothing s
    | .libraries platform => tell now n strand (.libraries (s.libraries.lookup platform)) s
    | .command command key =>
      let put (w : Workshop) (c : Checkouts) : BridgeStage :=
        { s with
          workshop := w
          bridge := { s.bridge with state := s.bridge.state.withCheckouts c } }
      let settled (s : BridgeStage) : BridgeStage :=
        { s with runs := s.runs.filter fun r => r.1 ≠ n }
      match s.workshop.turn now (s.runs.lookup n) command key s.bridge.state.checkouts with
      | .began run w c => .moved { put w c with runs := (n, run) :: s.runs }
      | .ended status w c => tell now n strand (.ended status) (settled (put w c))
      | .waits time =>
        match tell now n strand .nothing s with
        | .parked t => .parked (earlier t (some time))
        | .moved s => .moved (settled s)

/-- The turn of a strand. -/
def strandTurn (now : Nat) (strand : BridgeStrand) (s : BridgeStage) : Advance BridgeStage :=
  let patient (b : Option Bridge) : Advance BridgeStage :=
    match b with
    | some b => .moved (s.withBridge b)
    | none => .parked none
  match strand with
  | .read => patient s.bridge.readTurn
  | .write => patient s.bridge.writeTurn
  | .handler n i => handlerTurn now n i s
  | .close i => s.advance (s.bridge.closeTurn now i)
  | .server strand =>
    match Servers.strandTurn s.bridge.state.fs now strand s.network with
    | .parked t => .parked t
    | .moved w => .moved (s.withNetwork w)

/-- The next reply that the browser has not read. -/
def nextReply? (s : BridgeStage) : Option Json := s.bridge.written[s.taken]?

/-- How everything takes turns. -/
def stage : Stage BridgeStage BrowserWait BrowserHeard BridgeStrand where
  own := strands
  ownTurn := strandTurn
  width _ := 1
  turn _ _ w s :=
    match w with
    | .reply =>
      match s.nextReply? with
      | some r => .finished (.reply (some r)) { s with taken := s.taken + 1 }
      | none => if s.bridge.isEnded then .finished (.reply none) s else .parked none
    | .finish => if s.bridge.isEnded then .finished .ended s else .parked none
  drop _ s := s

/-- The browser writes, unless it has ended its output. -/
def write (bytes : List UInt8) (s : BridgeStage) : BridgeStage :=
  if s.bridge.inputEnded then s
  else s.withBridge { s.bridge with input := s.bridge.input ++ bytes }

/-- The browser writes and waits for a reply. -/
def reply (bytes : List UInt8) (s : BridgeStage) : (BrowserWait ⊕ BrowserHeard) × BridgeStage :=
  (.inl .reply, s.write bytes)

/-- The browser ends its output and waits until the bridge has ended. -/
def finish (s : BridgeStage) : (BrowserWait ⊕ BrowserHeard) × BridgeStage :=
  (.inl .finish, s.withBridge { s.bridge with inputEnded := true })

/-- The browser reads all replies that are there. -/
def takeReplies (s : BridgeStage) : List Json × BridgeStage :=
  (s.bridge.written.drop s.taken, { s with taken := s.bridge.written.length })

/-- The bytes of messages. -/
def framed (messages : List Json) : List UInt8 :=
  messages.flatMap fun m => (Frame.encode m).getD []

/-- Gives an order to a server. -/
def order (launch : Option Nat) (o : Order) (s : BridgeStage) : Bool × BridgeStage :=
  let (there, servers) := s.servers.order launch o
  (there, { s with servers := servers })

/-- What happened since somebody asked. -/
def news (s : BridgeStage) :
    ((List LaunchSpec × List (Nat × List Json)) × (List Command × List RepositoryKey)) × BridgeStage :=
  let (served, servers) := s.servers.news
  let (done, workshop) := s.workshop.news
  ((served, done), { s with servers := servers, workshop := workshop })

end BridgeStage

end CodeNav.Rehearsal
