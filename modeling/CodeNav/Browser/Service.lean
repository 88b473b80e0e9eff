import CodeNav.Browser.Reply
import CodeNav.Browser.Request
import CodeNav.Calendar
import CodeNav.Config.Load
import CodeNav.Server.Registry
import CodeNav.Settings.File
import CodeNav.Sync.Removal

/-!
# Serving requests

Each message of the browser gets a handler, which reads it as a request and does what is asked, in
turns with the handlers of other messages. Sessions and checkouts are shared by all handlers. When a
checkout has changed, the session of its repository is taken out and closed.

## Main definitions

* `Service`: what requests are served with, made from a configuration by `Service.ofConfig`
* `ServiceState`: what handlers share
* `Handler`: a message that is being handled, with `Handler.begin`, `turn` and `drop`
-/

namespace CodeNav

/-- What requests are served with. -/
structure Service where
  sync : SyncOptions
  settings : SettingsFile
  /-- How long a request for build progress waits for news, in milliseconds. -/
  progressPoll : Nat

/-- What handlers share. -/
structure ServiceState where
  sessions : Sessions
  checkouts : Checkouts

namespace ServiceState

/-- The files. -/
def fs (s : ServiceState) : FileSystem := s.checkouts.fs

/-- The state with other sessions. -/
def withSessions (s : ServiceState) (r : Sessions) : ServiceState := { s with sessions := r }

/-- The state with other checkouts. -/
def withCheckouts (s : ServiceState) (c : Checkouts) : ServiceState := { s with checkouts := c }

/-- The state with other files. -/
def withFiles (s : ServiceState) (fs : FileSystem) : ServiceState :=
  { s with checkouts := { s.checkouts with fs := fs } }

end ServiceState

namespace Service

/-- How it is said that nothing tells where the settings are. -/
def noSettingsPath : String := "cannot determine settings path: set host.settings_path"

/-- The service of a configuration, and its state before the first request. -/
def ofConfig (loaded : LoadedConfig) (folders : UserFolders) (usualCommand : String)
    (processId : Nat) (fs : FileSystem) : Except String (Service × ServiceState) :=
  let sync := loaded.config.syncConfig
  let host := loaded.config.hostConfig folders.configFolder
  match host.settingsPath with
  | none => .error noSettingsPath
  | some path =>
    .ok
      ({ sync :=
          ⟨loaded.checkoutRoot, sync.gitCommand, sync.buildCommand, sync.commandTimeout⟩
         settings := ⟨path, { Settings.usual with autoCheckout := sync.autoCheckout }⟩
         progressPoll := host.progressPoll },
       { sessions :=
          .none loaded.checkoutRoot ⟨loaded.config.serverConfig, usualCommand, processId⟩
         checkouts := ⟨fs, .none, .empty⟩ })

end Service

/-- The version of the program. -/
def programVersion : String := "0.1.0"

/-- How far a message has been handled. -/
inductive HandlerPhase where
  | arrived
  /-- The settings are about to be read. -/
  | loading (request : Request)
  | loaded (request : Request) (settings : Except SettingsError Settings)
  /-- Calls on a session are made, one after the other. -/
  | calling (request : Request) (session : Nat) (phase : SessionPhase) (rest : List SessionCall)
  /-- A checkout is synchronized; once it has changed, its session is taken out. -/
  | synchronizing (request : Request) (call : Synchronization) (eviction : Option Eviction)
  | removing (call : Removal) (eviction : Option Eviction)
  /-- A checkout is about to be looked at. -/
  | inspecting (path : Path)
  /-- Sessions are taken out; `one` if it is that of a repository. -/
  | evicting (one : Bool) (eviction : Eviction)
  | watching (watch : ProgressWatch)
  /-- The place of the platform's libraries is looked up for changed settings. -/
  | locating (settings : Settings)
  | saving (settings : Settings) (step : SettingsFile.SaveStep)

/-- A message that is being handled. -/
structure Handler where
  message : PageMessage
  phase : HandlerPhase

/-- What others have to do before a handler can go on. -/
inductive HandlerWant where
  | nothing
  | command (command : Command) (key : RepositoryKey)
  /-- The libraries of a platform are to be found. -/
  | libraries (platform : String)

/-- What others have done. -/
inductive HandlerNews where
  | nothing
  | ended (status : Except String CommandStatus)
  | libraries (path : Option String)

/-- What comes of a handler's turn before its reply is addressed. -/
abbrev HandlerTurn := Turn ServiceState HandlerPhase Reply

namespace Handler

/-! ### Replies -/

/-- The place on a page that a request is about. -/
def token? : Request → Option PageToken
  | .hover t => some ⟨t.line, t.character, t.text⟩
  | .definition t => some ⟨t.line, t.character, t.text⟩
  | .references t => some ⟨t.line, t.character, t.text⟩
  | .documentHighlight t => some ⟨t.line, t.character, t.text⟩
  | _ => none

/-- A place in a document with its line counted from one. -/
def numbered (e : LocationEntry) : Json :=
  match e.toJson with
  | .object fields => .object (Json.insertField "lineNumber" (.nat (e.start.line + 1)) fields)
  | j => j

/-- The value of a session's answer. -/
def answerValue : SessionAnswer → Option Json
  | .initialized _ => none
  | .done => none
  | .rows rows => some (.array (rows.map OutlineRow.toJson))
  | .text text => some (.string text)
  | .places places => some (.ofFields [("locations", .array (places.map numbered))])
  | .marks marks => some (.ofFields [("documentHighlights", .array (marks.map Highlight.toJson))])

/-- The name under which a request is answered. A document that was opened is answered with its
symbols. -/
def answeredAs (name : String) : Request → String
  | .didOpen _ _ => "documentSymbol"
  | _ => name

/-- The reply for what a session has answered. -/
def sessionReply (name : String) (request : Request) (result : SessionResult) : Reply :=
  let reply := match result with
    | .ok answer => Reply.success (answeredAs name request) (answerValue answer)
    | .error e => .error name e.message
  match token? request with
  | some token => reply.about token
  | none => reply

/-- The reply with a checkout's folder. -/
def folderFields (path : Path) : List (String × Json) :=
  [("localCheckoutDirectory", .string path.text)]

/-- The reply for a page whose repository was synchronized. -/
def pageReply (name : String) (result : SyncResult) : Reply :=
  match result with
  | .error e => .failure name e.message
  | .ok o =>
    if o.action = .skipped then .skip name
    else
      .success name (some (.ofFields (folderFields o.path ++
        [("action", .string o.action.text), ("built", .bool o.built)])))

/-- The reply for what is known of a checkout. -/
def infoReply (name : String) (result : Except SyncError CheckoutInfo) : Reply :=
  match result with
  | .error e => .error name e.message
  | .ok i =>
    .success name (some (.ofFields (folderFields i.path ++
      [("lastUpdate", .string (Calendar.written i.lastUpdate))])))

/-- The reply for a checkout that was removed. -/
def removalReply (name : String) (result : Except SyncError Path) : Reply :=
  match result with
  | .error e => .error name e.message
  | .ok path => .success name (some (.ofFields (folderFields path)))

/-- The reply for sessions that were taken out. -/
def evictionReply (name : String) (one any : Bool) : Reply :=
  .success name (if one then some (.ofFields [("removed", .bool any)]) else none)

/-- The reply with the settings. -/
def settingsReply (name : String) (s : Settings) : Reply :=
  .success name (match s.toJson with
    | .object fields =>
      some (.object (Json.insertField "version" (.string programVersion) fields))
    | j => some j)

/-! ### Turns -/

/-- Calls on a session are made until one of them has to wait. -/
def makeCalls (name : String) (request : Request) (n : Nat) :
    List SessionCall → SessionResult → ServiceState → HandlerTurn
  | [], last, s => .finished (sessionReply name request last) s
  | call :: rest, _, s =>
    match s.sessions.beginOn n call with
    | (.inl phase, r) => .moved (.calling request n phase rest) (s.withSessions r)
    | (.inr (.error e), r) => .finished (sessionReply name request (.error e)) (s.withSessions r)
    | (.inr (.ok a), r) => makeCalls name request n rest (.ok a) (s.withSessions r)

/-- A call on the session of a repository, which has to be there. -/
def callExisting (name : String) (request : Request) (repository : RepositoryArgs)
    (call : SessionCall) (s : ServiceState) : HandlerTurn :=
  match s.sessions.find? repository.key with
  | none => .finished (sessionReply name request (.error (.notRunning .created))) s
  | some n => makeCalls name request n [call] (.error .closed) s

/-- A question about a token. -/
def askAbout (name : String) (request : Request) (t : TokenArgs) (q : PlaceQuestion)
    (s : ServiceState) : HandlerTurn :=
  callExisting name request t.document.repository
    (.place q t.document.filepath t.position) s

/-- Somebody asks about the checkout of an address. -/
def inspect (v : Service) (name url : String) (s : ServiceState) : HandlerTurn :=
  match v.sync.locate url with
  | .error e => .finished (.error name e.message) s
  | .ok (_, path) => .moved (.inspecting path) s

/-- Sessions are taken out. -/
def evict (name : String) (one : Bool) (call : EvictionCall) (s : ServiceState) : HandlerTurn :=
  match Eviction.begin call s.sessions with
  | (.inl e, r) => .moved (.evicting one e) (s.withSessions r)
  | (.inr any, r) => .finished (evictionReply name one any) (s.withSessions r)

/-- The log that a request for build progress is about, if there is one. -/
def progressKey? (b : ProgressBoard) (a : ProgressArgs) : Option RepositoryKey :=
  match a.key? with
  | some key => some key
  | none => b.latest? a.resource

/-- Somebody waits for news in a log. -/
def watch (v : Service) (now : Nat) (name : String) (a : ProgressArgs) (s : ServiceState) :
    HandlerTurn :=
  let board := s.checkouts.board
  match progressKey? board a with
  | none => .finished (.success name (some ProgressSnapshot.empty.toJson)) s
  | some key =>
    match ProgressWatch.start board key now v.progressPoll with
    | .inl w => .moved (.watching w) s
    | .inr snapshot => .finished (.success name (some snapshot.toJson)) s

/-- A request begins. -/
def start (v : Service) (now : Nat) (name : String) (request : Request) (s : ServiceState) :
    HandlerTurn :=
  match request with
  | .openPage _ => .moved (.loading request) s
  | .didOpen _ _ => .moved (.loading request) s
  | .settings => .moved (.loading request) s
  | .updateSettings _ => .moved (.loading request) s
  | .checkoutRepository _ => .moved (.loading request) s
  | .documentSymbol d => callExisting name request d.repository (.symbols d.filepath) s
  | .hover t => askAbout name request t .hover s
  | .definition t => askAbout name request t .definition s
  | .references t => askAbout name request t .references s
  | .documentHighlight t => askAbout name request t .highlights s
  | .shutdown r => callExisting name request r .shutdown s
  | .exit r => evict name true (.one r.key) s
  | .reset => evict name false .all s
  | .repository url => inspect v name url s
  | .deleteRepository url =>
    match Removal.begin v.sync url s.checkouts with
    | (.inl r, c) => .moved (.removing r none) (s.withCheckouts c)
    | (.inr r, c) => .finished (removalReply name r) (s.withCheckouts c)
  | .buildProgress a => watch v now name a s

/-- A synchronization has ended. -/
def synchronized (v : Service) (name : String) (request : Request) (result : SyncResult)
    (s : ServiceState) : HandlerTurn :=
  match request, result with
  | .checkoutRepository url, .ok _ => inspect v name url s
  | _, result => .finished (pageReply name result) s

/-- A synchronization begins. -/
def synchronize (v : Service) (name : String) (request : Request) (url : String) (force : Bool)
    (settings : Settings) (s : ServiceState) : HandlerTurn :=
  match Synchronization.begin v.sync url force settings.accessToken? s.checkouts with
  | (.inl call, c) => .moved (.synchronizing request call none) (s.withCheckouts c)
  | (.inr result, c) => synchronized v name request result (s.withCheckouts c)

/-- A document is opened in the session of its repository, which is made and started if need be. -/
def openDocument (name : String) (request : Request) (d : DocumentArgs) (text : String)
    (settings : Settings) (s : ServiceState) : HandlerTurn :=
  let (n, r) := s.sessions.get d.repository.key
  makeCalls name request n
    [.start settings.context, .ready, .initialized, .didOpen d.filepath text,
      .symbols d.filepath] (.error .closed) (s.withSessions r)

/-- The settings were read. Only requests about the settings themselves mind when they cannot be
read; others go on with the usual ones. -/
def settingsRead (v : Service) (name : String) (request : Request)
    (settings : Except SettingsError Settings) (s : ServiceState) : HandlerTurn :=
  let usable := settings.toOption.getD .usual
  match request, settings with
  | .openPage page, _ =>
    if usable.autoCheckout then
      match RepositoryAddress.ofPage page.resource page.href with
      | .error e => .finished (.error name e.message) s
      | .ok address => synchronize v name request address.text false usable s
    else .finished (.skip name) s
  | .didOpen d text, _ => openDocument name request d text usable s
  | .checkoutRepository url, _ => synchronize v name request url true usable s
  | _, .error e => .finished (.error name e.chain) s
  | .updateSettings u, .ok current =>
    let changed := current.apply u
    if u.sdk.isSome && u.sdkPath.isNone then .moved (.locating changed) s
    else .moved (.saving changed .makeFolder) s
  | _, .ok current => .finished (settingsReply name current) s

/-- A checkout that has changed costs its repository the session; then the call goes on. -/
def passWord {φ : Type} (now : Nat) (key : RepositoryKey) (eviction : Option Eviction)
    (phase : Option Eviction → φ) (goOn : ServiceState → Turn ServiceState φ Reply)
    (s : ServiceState) : Turn ServiceState φ Reply :=
  ((Eviction.turnFor s.fs now key eviction s.sessions).lift s.withSessions).map
    (fun e => phase (some e)) fun _ s => goOn s

/-- A synchronization goes on with some news. -/
def syncTurn (v : Service) (now : Nat) (name : String) (request : Request) (news : SyncNews)
    (call : Synchronization) (s : ServiceState) : HandlerTurn :=
  ((call.turn v.sync now news s.checkouts).lift s.withCheckouts).map
    (fun call => .synchronizing request call none) fun r s => synchronized v name request r s

/-- A removal goes on with some news. -/
def removalTurn (name : String) (news : SyncNews) (call : Removal) (s : ServiceState) :
    HandlerTurn :=
  ((call.turn news s.checkouts).lift s.withCheckouts).map
    (fun call => .removing call none) fun r s => .finished (removalReply name r) s

/-- A step of saving the settings. -/
def saveTurn (v : Service) (name : String) (settings : Settings) (step : SettingsFile.SaveStep)
    (s : ServiceState) : HandlerTurn :=
  match v.settings.perform settings step s.fs with
  | .error e => .finished (.error name e.chain) (s.withFiles (v.settings.leftBy step s.fs))
  | .ok fs =>
    match step.next? with
    | some next => .moved (.saving settings next) (s.withFiles fs)
    | none => .finished (.success name none) (s.withFiles fs)

/-- A handler goes on in a phase. A handler that takes out several sessions has a strand for each of
them; the others have one. -/
def phaseTurn (v : Service) (now strand : Nat) (news : HandlerNews) (m : PageMessage)
    (phase : HandlerPhase) (s : ServiceState) : HandlerTurn :=
  match phase with
  | .arrived =>
    match Request.parse m.name m.userInfo with
    | .error e => .finished (.error m.name e.message) s
    | .ok request => start v now m.name request s
  | .loading request => .moved (.loaded request (v.settings.load s.fs)) s
  | .loaded request settings => settingsRead v m.name request settings s
  | .calling request n phase rest =>
    ((s.sessions.turnOn s.fs now n phase).lift s.withSessions).map
      (fun phase => .calling request n phase rest) fun result s =>
        match result with
        | .error e => .finished (sessionReply m.name request (.error e)) s
        | .ok a => makeCalls m.name request n rest (.ok a) s
  | .synchronizing request call eviction =>
    match call.wants, news with
    | .invalidation key, _ =>
      passWord now key eviction (.synchronizing request call)
        (syncTurn v now m.name request .invalidated call) s
    | .command _ _, .ended status => syncTurn v now m.name request (.ended status) call s
    | _, _ => syncTurn v now m.name request .nothing call s
  | .removing call eviction =>
    match call.wants with
    | .invalidation key =>
      passWord now key eviction (.removing call) (removalTurn m.name .invalidated call) s
    | _ => removalTurn m.name .nothing call s
  | .inspecting path => .finished (infoReply m.name (s.checkouts.info path)) s
  | .evicting one e =>
    ((e.turn s.fs now strand s.sessions).lift s.withSessions).map (.evicting one)
      fun any s => .finished (evictionReply m.name one any) s
  | .watching w =>
    ((w.turn now s.checkouts.board).lift fun _ => s).map .watching
      fun snapshot s => .finished (.success m.name (some snapshot.toJson)) s
  | .locating settings =>
    match news with
    | .libraries path =>
      .moved (.saving { settings with sdkPath := path.getD settings.sdkPath } .makeFolder) s
    | _ => .parked none
  | .saving settings step => saveTurn v m.name settings step s

/-- A message is going to be handled. -/
def begin (m : PageMessage) : Handler := ⟨m, .arrived⟩

/-- What others have to do for a handler. -/
def wants (h : Handler) : HandlerWant :=
  match h.phase with
  | .synchronizing _ call _ =>
    match call.wants with
    | .command c key => .command c key
    | _ => .nothing
  | .locating settings => .libraries settings.sdk
  | _ => .nothing

/-- How many strands a handler has. -/
def width (h : Handler) : Nat :=
  match h.phase with
  | .evicting _ e => e.closings.length
  | _ => 1

/-- A handler goes on. Its reply goes to the tab that asked. -/
def turn (v : Service) (now strand : Nat) (news : HandlerNews) (h : Handler) (s : ServiceState) :
    Turn ServiceState Handler Reply :=
  (phaseTurn v now strand news h.message h.phase s).map (fun phase => { h with phase := phase })
    fun reply s => .finished (reply.addressed h.message.tab h.message.repeatedInfo) s

/-- A handler is given up. -/
def drop (h : Handler) (s : ServiceState) : ServiceState :=
  let dropEviction (e : Option Eviction) (s : ServiceState) : ServiceState :=
    match e with
    | some e => s.withSessions (e.drop s.sessions)
    | none => s
  match h.phase with
  | .calling _ n phase _ => s.withSessions (s.sessions.dropOn n phase)
  | .synchronizing _ call e => dropEviction e (s.withCheckouts (call.drop s.checkouts))
  | .removing call e => dropEviction e (s.withCheckouts (call.drop s.checkouts))
  | .evicting _ e => dropEviction (some e) s
  | _ => s

end Handler

end CodeNav
