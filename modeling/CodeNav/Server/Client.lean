import CodeNav.Lock.Fair
import CodeNav.Server.Error
import CodeNav.Server.Wire
import CodeNav.Turn
import CodeNav.Url.File
import CodeNav.Width

/-!
# Talking to a language server

A client numbers its requests and remembers which of them wait for an answer. Messages are written
one at a time, in the order in which their writers came. A reader takes the server's messages in
their order: it hands answers to the requests they belong to, answers the requests of the server
itself, and ignores the rest. When the server's output ends, every request that still waits fails,
and so does every later one.

## Main definitions

* `Client`: the state of a client
* `ServerCall`: a request, from writing it to its answer
* `Note`: a message that has no answer
* `Client.readerTurn`: the reader
* `Client.answerFor`: how requests of the server are answered
-/

namespace CodeNav

/-- The state of a client. -/
structure Client where
  wire : Wire
  /-- The address and the name of the checkout. -/
  rootUri : String
  rootName : String
  /-- How long a request waits unless it says otherwise, in milliseconds. -/
  requestLimit : Option Nat
  nextId : Nat
  /-- The requests that wait for an answer. -/
  pending : List Nat
  /-- Answers that have come and are not yet taken. -/
  answers : List (Nat × Json)
  writer : FairLock
  decoder : Decoder
  /-- The answer to a request of the server that the reader is writing, with its ticket. -/
  answering : Option (Nat × Json)
  /-- Whether the server's output has ended. -/
  closed : Bool
  deriving Inhabited

namespace Client

/-- A client for a server that was just started in a folder. The folder has to be absolute. -/
def start (root : Path) (requestLimit : Option Nat) : Except SessionError Client :=
  match Url.ofFolder? root with
  | none => .error (.invalidPath root.text)
  | some url =>
    .ok
      { wire := .fresh
        rootUri := url.text
        rootName := root.fileName?.getD "workspace"
        requestLimit := requestLimit
        nextId := 1
        pending := []
        answers := []
        writer := .free
        decoder := .fresh
        answering := none
        closed := false }

/-- Queues up for writing. -/
def queue (c : Client) : Nat × Client :=
  let (ticket, writer) := c.writer.enter
  (ticket, { c with writer := writer })

/-- Gives a place in the queue back. -/
def unqueue (c : Client) (ticket : Nat) : Client :=
  { c with writer := c.writer.leave ticket }

/-- Why a message could not be written. -/
def brokenPipe : SessionError := .io "broken pipe"

/-- Writes a message when it is its turn, and leaves the queue. -/
def write? (c : Client) (ticket : Nat) (message : Json) :
    Option (Except SessionError Unit × Client) :=
  if c.writer.isHolder ticket then
    match c.wire.write message with
    | some wire => some (.ok (), { c with wire := wire }.unqueue ticket)
    | none => some (.error brokenPipe, c.unqueue ticket)
  else none

/-- A request as a message. -/
def requestMessage (id : Nat) (method : String) (params : Json) : Json :=
  .ofFields
    [("jsonrpc", .string "2.0"), ("id", .nat id), ("method", .string method), ("params", params)]

/-- A message that has no answer. -/
def noteMessage (method : String) (params : Json) : Json :=
  .ofFields [("jsonrpc", .string "2.0"), ("method", .string method), ("params", params)]

end Client

/-- A message that has no answer, waiting to be written. -/
structure Note where
  ticket : Nat
  message : Json
  deriving Inhabited

namespace Note

/-- Queues up with a message, unless the server's output has ended. -/
def start (method : String) (params : Json) (c : Client) : Except SessionError (Note × Client) :=
  if c.closed then .error .closed
  else
    let (ticket, c) := c.queue
    .ok (⟨ticket, Client.noteMessage method params⟩, c)

/-- Writes the message when it is its turn. -/
def turn (n : Note) (c : Client) : Turn Client Note (Except SessionError Unit) :=
  match c.write? n.ticket n.message with
  | none => .parked none
  | some (r, c) => .finished r c

/-- Gives up. -/
def drop (n : Note) (c : Client) : Client :=
  c.unqueue n.ticket

end Note

/-- A request to the server. -/
inductive ServerCall where
  /-- The request waits to be written. -/
  | writing (id ticket : Nat) (method : String) (limit : Option Nat) (message : Json)
  /-- The request was written and waits for its answer. -/
  | awaiting (id : Nat) (method : String) (limit deadline : Option Nat)
  deriving Inhabited

namespace ServerCall

/-- The number of a request. -/
def id : ServerCall → Nat
  | writing id _ _ _ _ => id
  | awaiting id _ _ _ => id

/-- Numbers a request and queues up for writing it, unless the server's output has ended. -/
def start (method : String) (params : Json) (limit : Option Nat) (c : Client) :
    Except SessionError (ServerCall × Client) :=
  if c.closed then .error .closed
  else
    let id := c.nextId
    let (ticket, c) := { c with nextId := id + 1, pending := c.pending ++ [id] }.queue
    .ok (.writing id ticket method limit (Client.requestMessage id method params), c)

/-- The client that no longer knows of a request. -/
def forget (c : Client) (id : Nat) : Client :=
  { c with
    pending := c.pending.filter (· ≠ id)
    answers := c.answers.filter fun a => a.1 ≠ id }

/-- What an answer means for the caller. A member `error` makes it a refusal, whatever its
value is. -/
def outcome (method : String) (answer : Json) : Except SessionError Json :=
  match answer.field? "error" with
  | some e =>
    .error (.protocol method (((e.field? "code").bind Json.int64?).getD 0)
      (((e.field? "message").bind Json.string?).getD "unknown error"))
  | none => .ok ((answer.field? "result").getD .null)

/-- Goes on with a request at time `now`. An answer counts even when it is taken after the time
limit, if nobody asked in between. -/
def turn (now : Nat) (r : ServerCall) (c : Client) :
    Turn Client ServerCall (Except SessionError Json) :=
  match r with
  | writing id ticket method limit message =>
    match c.write? ticket message with
    | none => .parked none
    | some (.error e, c) => .finished (.error e) (forget c id)
    | some (.ok (), c) => .moved (awaiting id method limit (limit.map (now + ·))) c
  | awaiting id method limit deadline =>
    match c.answers.lookup id with
    | some answer => .finished (outcome method answer) (forget c id)
    | none =>
      if id ∉ c.pending then .finished (.error .closed) (forget c id)
      else
        match deadline with
        | some t =>
          if t ≤ now then .finished (.error (.timeout method (limit.getD 0))) (forget c id)
          else .parked (some t)
        | none => .parked none

/-- Gives up. -/
def drop (r : ServerCall) (c : Client) : Client :=
  match r with
  | writing id ticket _ _ _ => forget (c.unqueue ticket) id
  | awaiting id _ _ _ => forget c id

end ServerCall

namespace Client

/-- An integer with an optional sign, when it fits in 64 bits. -/
def int64? (cs : List Char) : Option Int :=
  let (negative, digits) := match cs with
    | '-' :: rest => (true, rest)
    | '+' :: rest => (false, rest)
    | cs => (false, cs)
  (Decoder.digits? digits).bind fun n =>
    let i : Int := if negative then -n else n
    if Signed64 i then some i else none

/-- The number in a message's `id`, as an integer or as decimal text. -/
def idNumber? : Json → Option Int
  | .string s => int64? s.toList
  | j => j.int64?

/-- The answer's part for a request of the server, when the client knows the request. -/
def answerFor (method : String) (params : Option Json) (rootUri rootName : String) : Option Json :=
  match method with
  | "workspace/configuration" =>
    let items := ((params.bind fun p => p.field? "items").bind Json.array?).getD []
    some (.array (items.map fun _ => .null))
  | "workspace/workspaceFolders" =>
    some (.array [.ofFields [("uri", .string rootUri), ("name", .string rootName)]])
  | "window/workDoneProgress/create" => some .null
  | "client/registerCapability" => some .null
  | "client/unregisterCapability" => some .null
  | "window/showMessageRequest" => some .null
  | _ => none

/-- The message that answers a request of the server. -/
def answerMessage (id : Json) (method : String) (params : Option Json)
    (rootUri rootName : String) : Json :=
  match answerFor method params rootUri rootName with
  | some result => .ofFields [("jsonrpc", .string "2.0"), ("id", id), ("result", result)]
  | none =>
    .ofFields
      [("jsonrpc", .string "2.0"), ("id", id),
        ("error", .ofFields
          [("code", .int (-32601)), ("message", .string ("method not found: " ++ method))])]

/-- The client after a message of the server. -/
def handle (c : Client) (message : Json) : Client :=
  let method := (message.field? "method").bind Json.string?
  let id := (message.field? "id").filter fun id => !id.isNull
  match method, id with
  | some method, some id =>
    let (ticket, c) := c.queue
    let answer := answerMessage id method (message.field? "params") c.rootUri c.rootName
    { c with answering := some (ticket, answer) }
  | none, some id =>
    match idNumber? id with
    | some i =>
      if 0 ≤ i ∧ i.toNat ∈ c.pending then
        { c with
          pending := c.pending.filter (· ≠ i.toNat)
          answers := c.answers ++ [(i.toNat, message)] }
      else c
    | none => c
  | _, none => c

/-- The client after the server's output has ended. -/
def close (c : Client) : Client :=
  { c with closed := true, pending := [] }

/-- The reader goes on: it writes the answer it owes, or takes the next message. Nothing comes of it
when there is nothing to do. -/
def readerTurn (c : Client) : Option Client :=
  if c.closed then none
  else
    match c.answering with
    | some (ticket, message) =>
      (c.write? ticket message).map fun (_, c) => { c with answering := none }
    | none =>
      match c.wire.incoming with
      | [] => if c.wire.ended then some c.close else none
      | bytes =>
        let (decoder, message, rest) := c.decoder.feed bytes
        let c := { c with decoder := decoder, wire := { c.wire with incoming := rest } }
        match message with
        | some message => some (c.handle message)
        | none => if decoder = .stopped then some c.close else some c

end Client

end CodeNav
