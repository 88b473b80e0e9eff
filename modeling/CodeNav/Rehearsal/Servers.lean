import CodeNav.Rehearsal.Clock
import CodeNav.Rehearsal.Programs
import CodeNav.Server.Registry

/-!
# Rehearsing language servers

In a rehearsal a language server follows a script, which tells for each method what to do with the
first message of that method, with the second one, and so on. A server handles one message at a
time, and then obeys orders from outside. What is launched and what the servers have handled is
remembered until somebody asks.

## Main definitions

* `Deed`, `Script`: what a server does with a message
* `Order`: what a server may be told from outside
* `Servers`: all servers that were launched, with `Servers.launchTurn` and `Servers.turn`
-/

namespace CodeNav.Rehearsal

/-- What a server does with a message. -/
structure Deed where
  /-- Messages that are sent first. -/
  before : List Json
  /-- How long the server waits then, in milliseconds. -/
  delay : Nat
  /-- A text to be written in place of an answer; `$ID` stands for the number of the request. -/
  raw : Option String
  /-- Bytes to be written in place of an answer, or after the text. -/
  bytes : Option (List UInt8)
  silent : Bool
  /-- A whole answer, whose number is filled in when it is missing. -/
  reply : Option Json
  error : Option Json
  result : Json
  /-- Whether the server ends afterwards. -/
  close : Bool
  deriving Inhabited

/-- An answer with nothing in it, at once. -/
def Deed.usual : Deed := ⟨[], 0, none, none, false, none, none, .null, false⟩

/-- What a server does with the messages of each method. -/
abbrev Script := List (String × List Deed)

/-- What a server does with the message that has so many before it of the same method. -/
def Script.deed (s : Script) (method : String) (n : Nat) : Deed :=
  match s.lookup method with
  | none => .usual
  | some deeds => (deeds[n]?).getD (deeds.getLast?.getD .usual)

/-- What a server may be told from outside. -/
inductive Order where
  | send (bytes : List UInt8)
  | crash
  /-- The server closes its input and goes on with its output. -/
  | closeInput

/-- What a server is doing. -/
inductive ServerPhase where
  | listening
  /-- It waits before it answers. -/
  | delayed (message : Json) (deed : Deed) (readyAt : Nat)
  | gone

/-- A server that was launched. -/
structure Launched where
  /-- The session that launched it. -/
  session : Nat
  script : Script
  /-- How many of the messages to it were taken. -/
  taken : Nat
  /-- The methods of the messages taken. -/
  methods : List String
  phase : ServerPhase
  orders : List Order
  /-- Whether its input is open. -/
  listens : Bool
  /-- What it has handled since somebody asked. -/
  heard : List Json

/-- Why a launch is made to fail. -/
inductive Refusal where
  | reason (text : String)
  | io (text : String)

/-- Who launches servers. -/
inductive Launcher where
  | scripted
  /-- The machine, which is only good for failing. -/
  | machine

/-- All servers. -/
structure Servers where
  launcher : Launcher
  /-- The script of each launch; the last one is that of all later ones, too. -/
  scripts : List Script
  refusals : List (Option Refusal)
  launches : List Launched
  /-- What was launched since somebody asked. -/
  specs : List LaunchSpec

namespace Servers

/-- No servers yet. -/
def opening (launcher : Launcher) (scripts : List Script) (refusals : List (Option Refusal)) :
    Servers :=
  ⟨launcher, scripts, refusals, [], []⟩

/-- The script of a launch. -/
def scriptOf (s : Servers) (n : Nat) : Script :=
  (s.scripts[n]?).getD (s.scripts.getLast?.getD [])

/-- Why the machine does not start a server. -/
def machineFault (fs : FileSystem) (spec : LaunchSpec) : SessionError :=
  let reason := match findProgram fs spec.folder spec.command spec.args with
    | .error fault => fault.message
    | .ok _ => "not rehearsed"
  .launch spec.command reason

/-- The session that wants a server gets one, or is told why not. Nothing comes of it when the session
wants none. -/
def launchTurn (fs : FileSystem) (n : Nat) (w : Sessions × Servers) : Option (Sessions × Servers) :=
  let (r, s) := w
  match r.session? n with
  | none => none
  | some session =>
    match session.handshake with
    | .launching spec =>
      match s.launcher with
      | .machine => some (r.put n (session.launched (.error (machineFault fs spec))), s)
      | .scripted =>
        let i := s.launches.length
        let started : Except SessionError Unit := match (s.refusals[i]?).join with
          | none => .ok ()
          | some (.reason text) => .error (.launch spec.command text)
          | some (.io text) => .error (.io text)
        let session := session.launched started
        let phase : ServerPhase := if session.client.isSome then .listening else .gone
        some (r.put n session,
          { s with
            launches := s.launches ++ [⟨n, s.scriptOf i, 0, [], phase, [], true, []⟩]
            specs := s.specs ++ [spec] })
    | _ => none

/-- The streams of a server with a change. -/
def onWire (session : Nat) (f : Wire → Wire) (r : Sessions) : Sessions :=
  r.change session fun s =>
    { s with client := s.client.map fun c => { c with wire := f c.wire } }

/-- The server writes. -/
def say (bytes : List UInt8) (w : Wire) : Wire := { w with incoming := w.incoming ++ bytes }

/-- The server ends, and both of its streams with it. -/
def hangUp (w : Wire) : Wire := { w with accepts := false, ended := true }

/-- The messages to a session's server. -/
def writtenTo (r : Sessions) (session : Nat) : List Json :=
  match (r.session? session).bind (·.client) with
  | some c => c.wire.written
  | none => []

/-- The bytes of messages. -/
def framed (messages : List Json) : List UInt8 := messages.flatMap Wire.frame

/-- What a server writes in the end when it handles a message. -/
def answer (message : Json) (d : Deed) : List UInt8 :=
  let id := message.field? "id"
  match d.raw, d.bytes with
  | none, none =>
    match id with
    | none => []
    | some id =>
      if d.silent then []
      else
        let head := [("jsonrpc", Json.string "2.0"), ("id", id)]
        Wire.frame (match d.reply, d.error with
          | some (.object fields), _ =>
            if (Json.object fields).field? "id" |>.isSome then .object fields
            else .object (Json.insertField "id" id fields)
          | some other, _ => other
          | none, some e => .ofFields (head ++ [("error", e)])
          | none, none => .ofFields (head ++ [("result", d.result)]))
  | raw, bytes =>
    Text.utf8Bytes (Text.replaceAll "$ID".toList ((id.getD .null).compact.toList)
      ((raw.getD "").toList)) ++ bytes.getD []

/-- The servers with one of them changed. -/
def change (s : Servers) (i : Nat) (f : Launched → Launched) : Servers :=
  { s with launches := s.launches.modify i f }

/-- A server goes on. -/
def turn (now i : Nat) (w : Sessions × Servers) : Advance (Sessions × Servers) :=
  let (r, s) := w
  match s.launches[i]? with
  | none => .parked none
  | some l =>
    match l.phase with
    | .gone => .parked none
    | .delayed message deed time =>
      if now < time then .parked (some time)
      else
        let ends := deed.close || message.textAt "method" = "exit"
        let r := onWire l.session (say (answer message deed)) r
        if ends then .moved (onWire l.session hangUp r, s.change i fun l => { l with phase := .gone })
        else .moved (r, s.change i fun l => { l with phase := .listening })
    | .listening =>
      match (if l.listens then (writtenTo r l.session)[l.taken]? else none) with
      | some message =>
        let l := { l with taken := l.taken + 1, heard := l.heard ++ [message] }
        match (message.field? "method").bind Json.string? with
        | none => .moved (r, s.change i fun _ => l)
        | some method =>
          let deed := l.script.deed method (l.methods.count method)
          let l := { l with
            methods := method :: l.methods
            phase := .delayed message deed (now + deed.delay) }
          .moved (onWire l.session (say (framed deed.before)) r, s.change i fun _ => l)
      | none =>
        match l.orders with
        | [] => .parked none
        | order :: rest =>
          let l := { l with orders := rest }
          match order with
          | .send bytes => .moved (onWire l.session (say bytes) r, s.change i fun _ => l)
          | .crash =>
            .moved (onWire l.session hangUp r, s.change i fun _ => { l with phase := .gone })
          | .closeInput =>
            .moved (onWire l.session (fun w => { w with accepts := false }) r,
              s.change i fun _ => { l with listens := false })

/-- Gives an order to a server, the latest one unless a number is given, and tells whether it was
still there. -/
def order (launch : Option Nat) (o : Order) (s : Servers) : Bool × Servers :=
  let i := launch.getD (s.launches.length - 1)
  match s.launches[i]? with
  | none => (false, s)
  | some l =>
    match l.phase with
    | .gone => (false, s)
    | _ => (true, s.change i fun l => { l with orders := l.orders ++ [o] })

/-- What happened since somebody asked: what was launched, and what each server has handled. -/
def news (s : Servers) : (List LaunchSpec × List (Nat × List Json)) × Servers :=
  let heard := (s.launches.zipIdx.map fun (l, i) => (i, l.heard)).filter fun h => h.2 ≠ []
  ((s.specs, heard),
    { s with specs := [], launches := s.launches.map fun l => { l with heard := [] } })

/-- What goes on by itself where there are sessions and servers. -/
inductive Strand where
  | launch (session : Nat)
  | handshake (session : Nat)
  | reader (session : Nat)
  | server (launch : Nat)

/-- Everything that goes on by itself. -/
def strands (w : Sessions × Servers) : List Strand :=
  (List.range w.1.all.length).flatMap (fun n => [.launch n, .handshake n, .reader n])
    ++ (List.range w.2.launches.length).map .server

/-- The turn of something that goes on by itself. -/
def strandTurn (fs : FileSystem) (now : Nat) (strand : Strand) (w : Sessions × Servers) :
    Advance (Sessions × Servers) :=
  match strand with
  | .launch n =>
    match launchTurn fs n w with
    | none => .parked none
    | some w => .moved w
  | .handshake n =>
    match w.1.handshakeTurn now n with
    | .parked t => .parked t
    | .moved _ r => .moved (r, w.2)
    | .finished _ r => .moved (r, w.2)
  | .reader n =>
    match w.1.readerTurn n with
    | none => .parked none
    | some r => .moved (r, w.2)
  | .server i => turn now i w

end Servers

end CodeNav.Rehearsal
