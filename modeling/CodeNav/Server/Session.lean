import CodeNav.Digest
import CodeNav.Repository.Key
import CodeNav.Server.Client
import CodeNav.Server.Launch
import CodeNav.Server.Location

/-!
# Sessions

A session is one language server for one checkout. It is created without a server; the first call
that initializes it starts one and shakes hands with it, on an activity of its own, so that the
handshake goes on even when the caller gives up. A session that runs answers questions about
documents; once it is closed it stays closed.

A document is opened with the first text that is given for it; later texts are sent as changes, with
growing versions, unless the text is the one that was sent last. Calls for one document wait for
each other.

## Main definitions

* `Session`: the state, with `Session.observe` for what callers see of it
* `Handshake`, `Session.handshakeTurn`: getting a server ready
* `SessionCall`, `SessionAnswer`: what may be asked, and what is answered
* `SessionPhase`, `Session.begin`, `Session.turn`, `Session.drop`: calls on a session
-/

namespace CodeNav

/-- What every session of a program has in common. -/
structure SessionOptions where
  server : ServerConfig
  /-- The server that is started when none is named. -/
  usualCommand : String
  /-- The number of the process that servers are told about. -/
  processId : Nat
  deriving Inhabited

/-- The text of a document that the server has last been sent. -/
structure OpenDocument where
  version : Nat
  digest : String
  deriving DecidableEq, Inhabited

/-- What is known of a document, and who works on it. -/
structure DocumentSlot where
  uri : String
  lock : FairLock
  opened : Option OpenDocument
  deriving Inhabited

/-- How far the server has been got ready. -/
inductive Handshake where
  | notBegun
  /-- The server is being started. -/
  | launching (spec : LaunchSpec)
  /-- The server was asked to initialize. -/
  | asking (call : ServerCall)
  | ended (result : Except SessionError Unit)

/-- The state of a session. -/
structure Session where
  key : RepositoryKey
  checkout : Path
  options : SessionOptions
  state : SessionState
  handshake : Handshake
  client : Option Client
  /-- Whether the server was told that the handshake is over. -/
  initializedSent : Bool
  documents : List DocumentSlot

/-- How a call that initializes a session ended. -/
inductive Initialized where
  /-- This call started the server. -/
  | started
  | alreadyInitializing
  | alreadyRunning
  deriving DecidableEq, Inhabited

/-- A question about a place in a document. -/
inductive PlaceQuestion where
  | hover
  | definition
  | references
  | highlights
  deriving DecidableEq, Inhabited

/-- What a session may be asked for. -/
inductive SessionCall where
  | start (context : Context)
  | ready
  | initialized
  | didOpen (path text : String)
  | symbols (path : String)
  | place (question : PlaceQuestion) (path : String) (position : Position)
  | shutdown
  | exit
  | close

/-- What a session answers. -/
inductive SessionAnswer where
  | initialized (how : Initialized)
  | done
  | rows (rows : List OutlineRow)
  | text (text : String)
  | places (places : List LocationEntry)
  | marks (marks : List Highlight)

/-- How a call on a session ends. -/
abbrev SessionResult := Except SessionError SessionAnswer

/-- What is done with the answer of the server. -/
inductive Question where
  | symbols
  | place (question : PlaceQuestion)
  | shutdown

/-- How far a call on a session has come. -/
inductive SessionPhase where
  | awaitingHandshake
  | awaitingReady
  /-- The server is told that the handshake is over. -/
  | telling (note : Note)
  /-- The call waits for others on the document. -/
  | queued (uri : String) (ticket : Nat) (language text digest : String)
  /-- A text of the document is being sent. -/
  | sending (uri : String) (ticket : Nat) (opened : OpenDocument) (note : Note)
  | asking (question : Question) (call : ServerCall)
  /-- The server is asked to shut down before it is told to exit. -/
  | closing (call : ServerCall)
  /-- The server is told to exit. -/
  | exiting (note : Note)

namespace Session

/-- A session without a server. -/
def create (key : RepositoryKey) (checkout : Path) (options : SessionOptions) : Session :=
  ⟨key, checkout, options, .created, .notBegun, none, false, []⟩

/-- The session after a look at its server: one that runs is closed when its server's output has
ended. -/
def observe (s : Session) : Session :=
  if s.state = .running ∧ s.client.any (·.closed) then { s with state := .closed } else s

/-- The client of a session that runs. -/
def runningClient (s : Session) : Except SessionError Client :=
  match s.state with
  | .running =>
    match s.client with
    | some c => .ok c
    | none => .error .closed
  | .closed => .error .closed
  | other => .error (.notRunning other)

/-- The session with another state of its client. -/
def withClient (s : Session) (c : Client) : Session :=
  { s with client := some c }

/-- The file of a document in the checkout. Leading slashes say nothing; a path that leads out of
the checkout is refused, and so is none at all. -/
def documentFile (s : Session) (path : String) : Except SessionError Path :=
  let relative := path.toList.dropWhile (· = '/')
  let inside := (Path.componentsOf relative).all fun
    | .normal _ => true
    | .current => true
    | _ => false
  if relative = [] ∨ inside = false then .error (.invalidPath path)
  else .ok (s.checkout.join (String.ofList relative))

/-- The address of a document in the checkout. -/
def documentUri (s : Session) (path : String) : Except SessionError String :=
  match s.documentFile path with
  | .error e => .error e
  | .ok file =>
    match Url.ofFile? file with
    | some url => .ok url.text
    | none => .error (.invalidPath file.text)

/-- The language of a document, from the end of its name. -/
def languageOf (file : Path) : String :=
  match String.ofList ((file.suffix?.getD "").toList.map Text.lowerAscii) with
  | "swift" => "swift"
  | "swiftinterface" => "swift"
  | "m" => "objective-c"
  | "mm" => "objective-cpp"
  | "c" => "c"
  | "h" => "c"
  | "cc" => "cpp"
  | "cpp" => "cpp"
  | "cxx" => "cpp"
  | "hpp" => "cpp"
  | "hh" => "cpp"
  | "rs" => "rust"
  | "py" => "python"
  | "go" => "go"
  | "ts" => "typescript"
  | "js" => "javascript"
  | _ => "plaintext"

/-! ### Documents -/

/-- What is known of a document. -/
def slot? (s : Session) (uri : String) : Option DocumentSlot :=
  s.documents.find? fun d => d.uri = uri

/-- The session with what is known of a document changed. -/
def changeSlot (s : Session) (uri : String) (f : DocumentSlot → DocumentSlot) : Session :=
  { s with documents := s.documents.map fun d => if d.uri = uri then f d else d }

/-- The session with a slot for a document. -/
def withSlot (s : Session) (uri : String) : Session :=
  if (s.slot? uri).isSome then s
  else { s with documents := s.documents ++ [⟨uri, .free, none⟩] }

/-- Queues up for a document. -/
def enterSlot (s : Session) (uri : String) : Nat × Session :=
  let s := s.withSlot uri
  match s.slot? uri with
  | none => (0, s)
  | some d =>
    let (ticket, lock) := d.lock.enter
    (ticket, s.changeSlot uri fun d => { d with lock := lock })

/-- Gives a place in the queue of a document back. -/
def leaveSlot (s : Session) (uri : String) (ticket : Nat) : Session :=
  s.changeSlot uri fun d => { d with lock := d.lock.leave ticket }

/-- Remembers what the server has been sent. -/
def remember (s : Session) (uri : String) (opened : OpenDocument) : Session :=
  s.changeSlot uri fun d => { d with opened := some opened }

/-- The message that opens a document. -/
def openParams (uri language text : String) : Json :=
  .ofFields [("textDocument", .ofFields
    [("uri", .string uri), ("languageId", .string language), ("version", .int 1),
      ("text", .string text)])]

/-- The message that changes the text of a document. -/
def changeParams (uri : String) (version : Nat) (text : String) : Json :=
  .ofFields
    [("textDocument", .ofFields [("uri", .string uri), ("version", .nat version)]),
      ("contentChanges", .array [.ofFields [("text", .string text)]])]

/-! ### Questions -/

/-- A document in a question. -/
def documentParams (uri : String) : List (String × Json) :=
  [("textDocument", .ofFields [("uri", .string uri)])]

/-- The request for a question about a place. -/
def placeMethod : PlaceQuestion → String
  | .hover => "textDocument/hover"
  | .definition => "textDocument/definition"
  | .references => "textDocument/references"
  | .highlights => highlightMethod

/-- The parts of a request about a place. -/
def placeParams (q : PlaceQuestion) (uri : String) (p : Position) : Json :=
  .ofFields (documentParams uri ++ ("position", p.toJson) ::
    (if q = .references then [("context", .ofFields [("includeDeclaration", .bool false)])] else []))

/-- How much of a document is shown with a definition. -/
def definitionPreview : Preview := ⟨10, false⟩

/-- How much of a document is shown with a reference. -/
def referencePreview : Preview := ⟨1, true⟩

/-- The places in an answer, with excerpts. -/
def placesIn (fs : FileSystem) (s : Session) (q : PlaceQuestion) (preview : Preview)
    (answer : Json) : SessionResult :=
  (locations (placeMethod q) answer).map fun places =>
    .places (resolve fs (checkoutRoots fs s.checkout) preview places)

/-- What the answer of the server means for the caller. -/
def interpret (s : Session) (fs : FileSystem) (q : Question) (answer : Json) : SessionResult :=
  match q with
  | .symbols => (outline answer).map .rows
  | .shutdown => .ok .done
  | .place .hover => .ok (.text (hoverText answer))
  | .place .definition => placesIn fs s .definition definitionPreview answer
  | .place .references => placesIn fs s .references referencePreview answer
  | .place .highlights => (highlights answer).map .marks

/-! ### The handshake -/

/-- What a client can do. -/
def capabilities : Json :=
  .ofFields
    [("textDocument", .ofFields
      [("documentSymbol", .ofFields [("hierarchicalDocumentSymbolSupport", .bool true)]),
        ("hover", .ofFields [("contentFormat", .strings ["markdown", "plaintext"])]),
        ("definition", .ofFields [("linkSupport", .bool true)]),
        ("synchronization", .ofFields [("didSave", .bool false)])]),
      ("workspace", .ofFields
        [("configuration", .bool true), ("workspaceFolders", .bool true)])]

/-- The first request to a server. -/
def initializeParams (processId : Nat) (c : Client) : Json :=
  .ofFields
    [("processId", .nat processId), ("rootUri", .string c.rootUri),
      ("capabilities", capabilities),
      ("workspaceFolders", .array
        [.ofFields [("uri", .string c.rootUri), ("name", .string c.rootName)]])]

/-- The session after a handshake that failed. -/
def handshakeFailed (s : Session) (e : SessionError) : Session :=
  { s with state := .closed, handshake := .ended (.error e) }

/-- The session after its server was started, or could not be. -/
def launched (s : Session) (started : Except SessionError Unit) : Session :=
  match started with
  | .error e => s.handshakeFailed e
  | .ok () =>
    match Client.start s.checkout s.options.server.requestTimeout with
    | .error e => s.handshakeFailed e
    | .ok c =>
      match ServerCall.start "initialize" (initializeParams s.options.processId c)
          s.options.server.initializeTimeout c with
      | .error e => (s.withClient c).handshakeFailed e
      | .ok (call, c) => { s.withClient c with handshake := .asking call }

/-- The session after the server answered the handshake. A session that was closed meanwhile stays
closed. -/
def handshakeAnswered (s : Session) (r : Except SessionError Json) : Session :=
  match r with
  | .error e => s.handshakeFailed e
  | .ok _ =>
    if s.state = .initializing then { s with state := .running, handshake := .ended (.ok ()) }
    else { s with handshake := .ended (.error .closed) }

/-- The handshake goes on. While the server is being started, nothing comes of it. -/
def handshakeTurn (now : Nat) (s : Session) : Turn Session Unit Unit :=
  match s.handshake, s.client with
  | .asking call, some c =>
    match call.turn now c with
    | .parked t => .parked t
    | .moved call c => .moved () { s.withClient c with handshake := .asking call }
    | .finished r c => .finished () ((s.withClient c).handshakeAnswered r)
  | _, _ => .parked none

/-! ### Calls -/

/-- Asks the server of a session that runs. -/
def ask (question : Question) (method : String) (params : Json) (limit : Option Nat)
    (s : Session) (c : Client) : (SessionPhase ⊕ SessionResult) × Session :=
  match ServerCall.start method params limit c with
  | .error e => (.inr (.error e), s)
  | .ok (call, c) => (.inl (.asking question call), s.withClient c)

/-- Asks about a document of a session that runs. -/
def askAbout (question : Question) (method path : String) (params : String → Json)
    (s : Session) : (SessionPhase ⊕ SessionResult) × Session :=
  match s.runningClient with
  | .error e => (.inr (.error e), s)
  | .ok c =>
    match s.documentUri path with
    | .error e => (.inr (.error e), s)
    | .ok uri => ask question method (params uri) c.requestLimit s c

/-- Closes the session and tells its server to exit, if it has one whose output has not ended. -/
def beginExit (s : Session) : (SessionPhase ⊕ SessionResult) × Session :=
  let s := { s with state := .closed }
  match s.client with
  | none => (.inr (.ok .done), s)
  | some c =>
    match Note.start "exit" .null c with
    | .error _ => (.inr (.ok .done), s)
    | .ok (note, c) => (.inl (.exiting note), s.withClient c)

/-- How long a server may take to shut down before it is told to exit, in milliseconds. -/
def shutdownLimit : Nat := 2000

/-- What a session that has settled answers to those who wait for it. -/
def readiness (s : Session) : SessionResult :=
  match s.state with
  | .running => .ok .done
  | .closed => .error .closed
  | other => .error (.notRunning other)

/-- A call begins. -/
def begin (call : SessionCall) (s : Session) : (SessionPhase ⊕ SessionResult) × Session :=
  match call with
  | .start context =>
    match s.state with
    | .created =>
      let spec := LaunchSpec.of context s.options.server s.options.usualCommand s.checkout
      (.inl .awaitingHandshake, { s with state := .initializing, handshake := .launching spec })
    | _ =>
      let s := s.observe
      match s.state with
      | .initializing => (.inr (.ok (.initialized .alreadyInitializing)), s)
      | .running => (.inr (.ok (.initialized .alreadyRunning)), s)
      | _ => (.inr (.error .closed), s)
  | .ready =>
    if s.state = .initializing then (.inl .awaitingReady, s)
    else
      let s := s.observe
      (.inr s.readiness, s)
  | .initialized =>
    let s := s.observe
    match s.runningClient with
    | .error e => (.inr (.error e), s)
    | .ok c =>
      if s.initializedSent then (.inr (.ok .done), s)
      else
        let s := { s with initializedSent := true }
        match Note.start "initialized" (.object []) c with
        | .error e => (.inr (.error e), s)
        | .ok (note, c) => (.inl (.telling note), s.withClient c)
  | .didOpen path text =>
    let s := s.observe
    match s.runningClient with
    | .error e => (.inr (.error e), s)
    | .ok _ =>
      match s.documentFile path, s.documentUri path with
      | .ok file, .ok uri =>
        let (ticket, s) := s.enterSlot uri
        (.inl (.queued uri ticket (languageOf file) text (Digest.ofText text)), s)
      | .error e, _ => (.inr (.error e), s)
      | _, .error e => (.inr (.error e), s)
  | .symbols path =>
    askAbout .symbols outlineMethod path (fun uri => .ofFields (documentParams uri)) s.observe
  | .place q path position =>
    askAbout (.place q) (placeMethod q) path (fun uri => placeParams q uri position) s.observe
  | .shutdown =>
    let s := s.observe
    match s.runningClient with
    | .error e => (.inr (.error e), s)
    | .ok c => ask .shutdown "shutdown" .null none s c
  | .exit => s.beginExit
  | .close =>
    let s := s.observe
    if s.state = .running then
      match s.client with
      | none => s.beginExit
      | some c =>
        match ServerCall.start "shutdown" .null (some shutdownLimit) c with
        | .error _ => s.beginExit
        | .ok (call, c) => (.inl (.closing call), s.withClient c)
    else s.beginExit

/-- The turn that a call begins with or goes over to. -/
def entered : (SessionPhase ⊕ SessionResult) × Session → Turn Session SessionPhase SessionResult
  | (.inl phase, s) => .moved phase s
  | (.inr r, s) => .finished r s

/-- The call has the document for itself: it sends the text, unless the server has it. -/
def sendText (uri : String) (ticket : Nat) (language text digest : String) (s : Session) :
    Turn Session SessionPhase SessionResult :=
  let fail (e : SessionError) : Turn Session SessionPhase SessionResult :=
    .finished (.error e) (s.leaveSlot uri ticket)
  match s.client with
  | none => fail .closed
  | some c =>
    match (s.slot? uri).bind (·.opened) with
    | some opened =>
      if opened.digest = digest then .finished (.ok .done) (s.leaveSlot uri ticket)
      else
        let version := opened.version + 1
        match Note.start "textDocument/didChange" (changeParams uri version text) c with
        | .error e => fail e
        | .ok (note, c) => .moved (.sending uri ticket ⟨version, digest⟩ note) (s.withClient c)
    | none =>
      match Note.start "textDocument/didOpen" (openParams uri language text) c with
      | .error e => fail e
      | .ok (note, c) => .moved (.sending uri ticket ⟨1, digest⟩ note) (s.withClient c)

/-- A note that is being written. -/
def noteTurn (note : Note) (phase : Note → SessionPhase)
    (finish : Except SessionError Unit → Session → Turn Session SessionPhase SessionResult)
    (s : Session) : Turn Session SessionPhase SessionResult :=
  match s.client with
  | none => .parked none
  | some c => ((note.turn c).lift s.withClient).map phase finish

/-- A request that is being written or answered. -/
def callTurn (now : Nat) (call : ServerCall) (phase : ServerCall → SessionPhase)
    (finish : Except SessionError Json → Session → Turn Session SessionPhase SessionResult)
    (s : Session) : Turn Session SessionPhase SessionResult :=
  match s.client with
  | none => .parked none
  | some c => ((call.turn now c).lift s.withClient).map phase finish

/-- A call goes on. -/
def turn (fs : FileSystem) (now : Nat) (phase : SessionPhase) (s : Session) :
    Turn Session SessionPhase SessionResult :=
  match phase with
  | .awaitingHandshake =>
    match s.handshake with
    | .ended r => .finished (r.map fun _ => .initialized .started) s
    | _ => .parked none
  | .awaitingReady =>
    if s.state = .initializing then .parked none
    else
      let s := s.observe
      .finished s.readiness s
  | .telling note => noteTurn note .telling (fun r s => .finished (r.map fun _ => .done) s) s
  | .queued uri ticket language text digest =>
    match s.slot? uri with
    | some d =>
      if d.lock.isHolder ticket then sendText uri ticket language text digest s else .parked none
    | none => .parked none
  | .sending uri ticket opened note =>
    noteTurn note (.sending uri ticket opened) (fun r s =>
      match r with
      | .ok () => .finished (.ok .done) ((s.remember uri opened).leaveSlot uri ticket)
      | .error e => .finished (.error e) (s.leaveSlot uri ticket)) s
  | .asking question call =>
    callTurn now call (.asking question) (fun r s =>
      match r with
      | .ok answer => .finished (s.interpret fs question answer) s
      | .error e => .finished (.error e) s) s
  | .closing call => callTurn now call .closing (fun _ s => entered s.beginExit) s
  | .exiting note => noteTurn note .exiting (fun _ s => .finished (.ok .done) s) s

/-- A call is given up. -/
def drop (phase : SessionPhase) (s : Session) : Session :=
  let onClient (f : Client → Client) (s : Session) : Session :=
    { s with client := s.client.map f }
  match phase with
  | .awaitingHandshake => s
  | .awaitingReady => s
  | .telling note => onClient note.drop s
  | .queued uri ticket _ _ _ => s.leaveSlot uri ticket
  | .sending uri ticket _ note => (onClient note.drop s).leaveSlot uri ticket
  | .asking _ call => onClient call.drop s
  | .closing call => onClient call.drop s
  | .exiting note => onClient note.drop s

end Session

end CodeNav
