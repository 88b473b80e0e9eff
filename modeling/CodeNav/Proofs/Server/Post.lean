import CodeNav.Proofs.Server.Sessions
import CodeNav.Proofs.Server.Turns

/-!
# The post to a server

Whoever has a message for the server takes a ticket of the writer, and writes when the ticket has come
to the head of the queue: the handshake, the reader with an answer to a request of the server, and the
calls on the session. What they do to the queue and to the messages that were written is all that the
order of messages depends on.

## Main definitions

* `MessageKind`, `MessageKind.of`: what a message to a server is for
* `Post`, `Post.Moves`: the queue of the writer and the messages that were written, and how one of the
  writers changes them
* `SessionPhase.draft?`, `Handshake.draft?`, `Client.draft?`: the message that somebody waits to write
* `Session.post`: the post of a session
* `SessionPhase.Worded`: the message of a call is one of its kind

## Main statements

* `Session.Begins.moves`, `Session.Goes.moves`, `Session.Ends.moves`: what calls do to the post
* `Client.moves_readerTurn`: what the reader does to it
* `Session.Begins.worded`, `Session.Goes.worded`: the kinds of the messages of calls
-/

namespace CodeNav

/-! ### Kinds of messages -/

/-- What a message to a server is for. -/
inductive MessageKind where
  /-- It answers a request of the server. -/
  | answer
  /-- It asks the server to initialize. -/
  | greeting
  /-- It tells the server that the handshake is over. -/
  | confirmation
  /-- It tells the server to exit. -/
  | farewell
  /-- It tells the text of a document. -/
  | text (uri : Option String)
  /-- It is another request. -/
  | question
  deriving DecidableEq

namespace MessageKind

/-- What a message with a method and some parameters is for. -/
def ofMethod (method : String) (params : Option Json) : MessageKind :=
  match method with
  | "initialize" => greeting
  | "initialized" => confirmation
  | "exit" => farewell
  | "textDocument/didOpen" => text (uriOf params)
  | "textDocument/didChange" => text (uriOf params)
  | _ => question
where
  /-- The document that the parameters of a message are about. -/
  uriOf (params : Option Json) : Option String :=
    ((params.bind (·.field? "textDocument")).bind (·.field? "uri")).bind Json.string?

/-- What a message is for. Only answers have no method. -/
def of (m : Json) : MessageKind :=
  match (m.field? "method").bind Json.string? with
  | none => answer
  | some method => ofMethod method (m.field? "params")

@[simp]
theorem of_noteMessage (method : String) (params : Json) :
    of (Client.noteMessage method params) = ofMethod method (some params) := by
  simp [of, Client.noteMessage, Json.ofFields, Json.field?, Json.lookup_insertField, Json.string?]

@[simp]
theorem of_requestMessage (id : Nat) (method : String) (params : Json) :
    of (Client.requestMessage id method params) = ofMethod method (some params) := by
  simp [of, Client.requestMessage, Json.ofFields, Json.field?, Json.lookup_insertField,
    Json.string?]

@[simp]
theorem of_answerMessage (id : Json) (method : String) (params : Option Json) (uri name : String) :
    of (Client.answerMessage id method params uri name) = answer := by
  simp only [of, Client.answerMessage]
  split <;> split at * <;>
    simp_all [Json.ofFields, Json.field?, Json.lookup_insertField, Json.lookup]

/-- The message with the text of a document is about this document. -/
@[simp]
theorem of_textMessage (uri language text : String) (opened : Option OpenDocument) :
    of (Session.textMessage uri language text opened) = .text (some uri) := by
  cases opened <;>
    simp [Session.textMessage, ofMethod, ofMethod.uriOf, Session.openParams, Session.changeParams,
      Json.ofFields, Json.field?, Json.lookup_insertField, Json.string?]

/-- The other requests. -/
theorem ofMethod_question {method : String} {params : Option Json}
    (h : method ∈ ["textDocument/documentSymbol", "textDocument/hover", "textDocument/definition",
      "textDocument/references", "textDocument/documentHighlight", "shutdown"]) :
    ofMethod method params = question := by
  simp only [List.mem_cons, List.not_mem_nil, or_false] at h
  rcases h with rfl | rfl | rfl | rfl | rfl | rfl <;> rfl

end MessageKind

/-! ### The post -/

/-- The queue of the writer, the messages that were written, and whether the server takes more. -/
structure Post where
  queue : FairLock
  written : List Json
  accepts : Bool

namespace Post

/-- The post of a server that was just started. -/
def fresh : Post := ⟨.free, [], true⟩

/-- Somebody queues up. -/
def enter (p : Post) : Post := { p with queue := p.queue.enter.2 }

/-- Somebody leaves the queue. -/
def leave (p : Post) (ticket : Nat) : Post := { p with queue := p.queue.leave ticket }

/-- Somebody writes, and leaves the queue. -/
def write (p : Post) (d : Note) : Post :=
  { p.leave d.ticket with written := p.written ++ [d.message] }

/-- How a writer changes the post: it waits with some message before and with some message after. -/
inductive Moves (p : Post) : Option Note → Option Note → Post → Prop
  | stay (d : Option Note) : Moves p d d p
  | enter (message : Json) : Moves p none (some ⟨p.queue.enter.1, message⟩) p.enter
  | write {d : Note} (hholder : p.queue.isHolder d.ticket = true) (haccepts : p.accepts = true) :
      Moves p (some d) none (p.write d)
  | fail {d : Note} (hholder : p.queue.isHolder d.ticket = true) (haccepts : p.accepts = false) :
      Moves p (some d) none (p.leave d.ticket)

/-- What was written stays, and what is added is the message of the writer. -/
theorem Moves.written {p p' : Post} {d d' : Option Note} (h : p.Moves d d' p') :
    p'.written = p.written ∨ ∃ n, d = some n ∧ p'.written = p.written ++ [n.message] := by
  cases h with
  | write => exact Or.inr ⟨_, rfl, rfl⟩
  | _ => exact Or.inl rfl

/-- Writers do not make the server take messages or refuse them. -/
theorem Moves.accepts {p p' : Post} {d d' : Option Note} (h : p.Moves d d' p') :
    p'.accepts = p.accepts := by
  cases h <;> rfl

end Post

namespace Client

variable {c c' : Client}

/-- The post of a client. -/
def post (c : Client) : Post := ⟨c.writer, c.wire.written, c.wire.accepts⟩

/-- The answer that the reader waits to write. -/
def draft? (c : Client) : Option Note :=
  c.answering.map fun a ↦ ⟨a.1, a.2⟩

/-- Whoever holds the writer writes its message, unless the server takes none. -/
theorem post_of_write {ticket : Nat} {message : Json} {r : Except SessionError Unit}
    (h : c.write? ticket message = some (r, c')) :
    c.post.queue.isHolder ticket = true ∧ c'.answering = c.answering ∧
      ((r = .ok () ∧ c.post.accepts = true ∧ c'.post = c.post.write ⟨ticket, message⟩) ∨
        (r = .error brokenPipe ∧ c.post.accepts = false ∧ c'.post = c.post.leave ticket)) := by
  cases writes_of_write h with
  | written hholder haccepts => exact ⟨hholder, rfl, Or.inl ⟨rfl, haccepts, rfl⟩⟩
  | broken hholder haccepts => exact ⟨hholder, rfl, Or.inr ⟨rfl, haccepts, rfl⟩⟩

theorem moves_write {ticket : Nat} {message : Json} {r : Except SessionError Unit}
    (h : c.write? ticket message = some (r, c')) :
    c.post.Moves (some ⟨ticket, message⟩) none c'.post := by
  obtain ⟨hholder, -, ⟨-, haccepts, hpost⟩ | ⟨-, haccepts, hpost⟩⟩ := post_of_write h
  · rw [hpost]
    exact .write hholder haccepts
  · rw [hpost]
    exact .fail hholder haccepts

theorem moves_stay (hpost : c'.post = c.post) (hdraft : c'.draft? = c.draft?) :
    c.post.Moves c.draft? c'.draft? c'.post := by
  rw [hpost, hdraft]
  exact .stay _

/-- A message of the server may be a request, for whose answer the reader queues up. -/
theorem Handles.moves {m : Json} (h : c.Handles m c') (hdraft : c.draft? = none) :
    c.post.Moves c.draft? c'.draft? c'.post ∧ ∀ d ∈ c'.draft?, MessageKind.of d.message = .answer := by
  cases h with
  | asks =>
    rw [hdraft]
    exact ⟨.enter _, by simp [draft?]⟩
  | answers | ignores => exact ⟨moves_stay rfl rfl, fun d hd ↦ nomatch hdraft.symm.trans hd⟩

/-- What the reader does to the post. What it waits to write is an answer. -/
theorem moves_readerTurn (h : c.readerTurn = some c') :
    c.post.Moves c.draft? c'.draft? c'.post ∧
      ((∀ d ∈ c.draft?, MessageKind.of d.message = .answer) →
        ∀ d ∈ c'.draft?, MessageKind.of d.message = .answer) := by
  have hsame : ∀ c' : Client, c'.post = c.post → c'.draft? = c.draft? →
      c.post.Moves c.draft? c'.draft? c'.post ∧
        ((∀ d ∈ c.draft?, MessageKind.of d.message = .answer) →
          ∀ d ∈ c'.draft?, MessageKind.of d.message = .answer) :=
    fun c' hpost hdraft ↦ ⟨moves_stay hpost hdraft, by rw [hdraft]; exact id⟩
  have hreads := (reads_of_readerTurn h).2
  generalize c.reading = reading at hreads
  cases hreads with
  | @answers ticket message _ _ hanswering hwrite =>
    have hdraft : c.draft? = some ⟨ticket, message⟩ := by simp [draft?, hanswering]
    rw [hdraft]
    exact ⟨(moves_write hwrite :), by simp [draft?]⟩
  | @hears decoder m rest hanswering =>
    have hdraft : draft? { c with decoder := decoder, wire := { c.wire with incoming := rest } } = none := by
      simp [draft?, hanswering]
    obtain ⟨hmoves, hkind⟩ := (handles _ m).moves hdraft
    exact ⟨hmoves, fun _ ↦ hkind⟩
  | waits | breaks | ends => exact hsame _ rfl rfl

end Client

namespace Note

variable {c c' : Client} {n : Note}

theorem moves_start {method : String} {params : Json} (h : start method params c = .ok (n, c')) :
    c.post.Moves none (some n) c'.post ∧ n.message = Client.noteMessage method params := by
  obtain ⟨-, rfl, rfl⟩ := Session.note_start_eq_ok h
  exact ⟨.enter _, rfl⟩

/-- A message that has no answer is written, or the server takes none. -/
theorem post_of_turn {r : Except SessionError Unit} (h : n.turn c = .finished r c') :
    c.post.queue.isHolder n.ticket = true ∧
      ((r = .ok () ∧ c.post.accepts = true ∧ c'.post = c.post.write n) ∨
        ((∃ e, r = .error e) ∧ c.post.accepts = false ∧ c'.post = c.post.leave n.ticket)) := by
  simp only [turn] at h
  split at h
  · simp at h
  · rename_i r' c₁ hwrite
    obtain ⟨rfl, rfl⟩ := Turn.finished.inj h
    obtain ⟨hholder, -, hok | ⟨hr, hfail⟩⟩ := Client.post_of_write hwrite
    · exact ⟨hholder, Or.inl hok⟩
    · exact ⟨hholder, Or.inr ⟨⟨_, hr⟩, hfail⟩⟩

theorem moves_turn {r : Except SessionError Unit} (h : n.turn c = .finished r c') :
    c.post.Moves (some n) none c'.post := by
  obtain ⟨hholder, ⟨-, haccepts, hpost⟩ | ⟨-, haccepts, hpost⟩⟩ := post_of_turn h
  · rw [hpost]
    exact .write hholder haccepts
  · rw [hpost]
    exact .fail hholder haccepts

/-- What concerns no request does not concern the answers of the reader. -/
theorem draft?_turn {r : Except SessionError Unit} (h : n.turn c = .finished r c') :
    c'.draft? = c.draft? := by
  simp only [turn] at h
  split at h
  · simp at h
  · rename_i r' c₁ hwrite
    obtain ⟨-, rfl⟩ := Turn.finished.inj h
    simp only [Client.draft?, (Client.post_of_write hwrite).2.1]

theorem draft?_start {method : String} {params : Json} (h : start method params c = .ok (n, c')) :
    c'.draft? = c.draft? := by
  obtain ⟨-, -, rfl⟩ := Session.note_start_eq_ok h
  rfl

end Note

namespace ServerCall

variable {c c' : Client} {call call' : ServerCall} {now : Nat}

/-- The request that waits to be written. -/
def draft? : ServerCall → Option Note
  | writing _ ticket _ _ message => some ⟨ticket, message⟩
  | awaiting _ _ _ _ => none

theorem moves_start {method : String} {params : Json} {limit : Option Nat}
    (h : start method params limit c = .ok (call, c')) :
    c.post.Moves none call.draft? c'.post ∧ c'.draft? = c.draft? ∧ ∀ d ∈ call.draft?,
      d.message = Client.requestMessage c.nextId method params := by
  simp only [start] at h
  split at h
  · simp at h
  · obtain ⟨rfl, rfl⟩ := Prod.mk.inj (Except.ok.inj h)
    refine ⟨.enter _, rfl, ?_⟩
    simp [draft?]

theorem moves_moved (h : call.turn now c = .moved call' c') :
    c.post.Moves call.draft? none c'.post ∧ call'.draft? = none ∧ c'.draft? = c.draft? := by
  cases call with
  | writing id ticket m l message =>
    simp only [turn] at h
    split at h
    · simp at h
    · simp at h
    · rename_i hwrite
      obtain ⟨rfl, rfl⟩ := Turn.moved.inj h
      refine ⟨Client.moves_write hwrite, rfl, ?_⟩
      simp only [Client.draft?, (Client.post_of_write hwrite).2.1]
  | awaiting id m l deadline =>
    simp only [turn] at h
    split at h
    · simp at h
    · split at h
      · simp at h
      · split at h
        · split at h <;> simp at h
        · simp at h

theorem moves_finished {r : Except SessionError Json} (h : call.turn now c = .finished r c') :
    c.post.Moves call.draft? none c'.post ∧ c'.draft? = c.draft? := by
  cases call with
  | writing id ticket m l message =>
    simp only [turn] at h
    split at h
    · simp at h
    · rename_i hwrite
      obtain ⟨-, rfl⟩ := Turn.finished.inj h
      refine ⟨(Client.moves_write hwrite :), ?_⟩
      simp only [Client.draft?, forget, (Client.post_of_write hwrite).2.1]
    · simp at h
  | awaiting id m l deadline =>
    simp only [turn] at h
    have hstay : ∀ id, c.post.Moves none none (forget c id).post ∧ (forget c id).draft? = c.draft? :=
      fun id ↦ ⟨.stay none, rfl⟩
    split at h
    · obtain ⟨-, rfl⟩ := Turn.finished.inj h
      exact hstay id
    · split at h
      · obtain ⟨-, rfl⟩ := Turn.finished.inj h
        exact hstay id
      · split at h
        · split at h
          · obtain ⟨-, rfl⟩ := Turn.finished.inj h
            exact hstay id
          · simp at h
        · simp at h

/-- A request that is given up leaves the queue if it has not been written. -/
theorem post_drop (call : ServerCall) (c : Client) :
    (call.drop c).post = (match call.draft? with
      | some d => c.post.leave d.ticket
      | none => c.post) ∧ (call.drop c).draft? = c.draft? := by
  cases call <;> exact ⟨rfl, rfl⟩

end ServerCall

/-! ### The post of a session -/

/-- The message that the handshake waits to write. -/
def Handshake.draft? : Handshake → Option Note
  | asking call => call.draft?
  | _ => none

namespace SessionPhase

/-- The message that a call waits to write. -/
def draft? : SessionPhase → Option Note
  | telling note => some note
  | sending _ _ _ note => some note
  | asking _ call => call.draft?
  | closing call => call.draft?
  | exiting note => some note
  | _ => none

/-- What the messages of a call are for. -/
def kind : SessionPhase → MessageKind
  | telling _ => .confirmation
  | sending uri _ _ _ => .text (some uri)
  | exiting _ => .farewell
  | _ => .question

/-- The message that a call waits to write is one of its kind. -/
def Worded (phase : SessionPhase) : Prop :=
  ∀ d ∈ phase.draft?, MessageKind.of d.message = phase.kind

end SessionPhase

namespace Session

variable {s s' : Session} {c c' : Client} {now : Nat} {phase phase' : SessionPhase}

/-- The post of a session. As long as it has no server, nobody writes. -/
def post (s : Session) : Post :=
  (s.client.map Client.post).getD .fresh

/-- The answer that the reader of a session waits to write. -/
def reply? (s : Session) : Option Note :=
  s.client.bind Client.draft?

theorem post_of_client (h : s.client = some c) : s.post = c.post := by
  simp [post, h]

theorem reply?_of_client (h : s.client = some c) : s.reply? = c.draft? := by
  simp [reply?, h]

@[simp]
theorem post_observe (s : Session) : s.observe.post = s.post := by
  simp [post]

@[simp]
theorem reply?_observe (s : Session) : s.observe.reply? = s.reply? := by
  simp [reply?]

/-- How the post changes when an exit begins, whose message may have to wait. -/
theorem moves_beginExit (s : Session) :
    s.post.Moves none ((SessionWorld.phaseOf s.beginExit.1).bind SessionPhase.draft?)
      s.beginExit.2.post ∧ s.beginExit.2.reply? = s.reply? ∧
      ∀ phase, s.beginExit.1 = .inl phase → phase.Worded := by
  rcases s.beginExit_eq with heq | ⟨c, c', note, hclient, hstart, heq⟩
  · rw [heq]
    exact ⟨.stay none, rfl, by simp⟩
  · obtain ⟨hmoves, hmessage⟩ := Note.moves_start hstart
    rw [heq, post_of_client hclient, reply?_of_client hclient]
    refine ⟨hmoves, Note.draft?_start hstart, ?_⟩
    rintro phase hphase
    obtain rfl := Sum.inl.inj hphase
    rintro d hd
    obtain rfl := Option.some.inj hd
    rw [hmessage]
    exact MessageKind.of_noteMessage _ _

/-- How the post changes when a call begins. -/
theorem Begins.moves {what : SessionCall} {b : SessionPhase ⊕ SessionResult}
    (h : Begins s what b s') :
    s.post.Moves none ((SessionWorld.phaseOf b).bind SessionPhase.draft?) s'.post ∧
      s'.reply? = s.reply? := by
  cases h with
  | start => exact ⟨.stay none, rfl⟩
  | wait => exact ⟨.stay none, rfl⟩
  | atOnce => exact ⟨by rw [post_observe]; exact .stay none, s.reply?_observe⟩
  | tell hrunning hsent hstart =>
    have hclient := (runningClient_eq_ok hrunning).2
    rw [client_observe] at hclient
    rw [post_of_client hclient, reply?_of_client hclient]
    exact ⟨(Note.moves_start hstart).1, Note.draft?_start hstart⟩
  | @enter c path text uri file hrunning =>
    have hclient : (s.observe.enterSlot uri).2.client = s.client := by
      obtain ⟨documents, heq⟩ := s.observe.exists_enterSlot_eq uri
      rw [heq, ← s.client_observe]
    have hpost : (s.observe.enterSlot uri).2.post = s.post := by simp only [post, hclient]
    have hreply : (s.observe.enterSlot uri).2.reply? = s.reply? := by simp only [reply?, hclient]
    rw [hpost]
    exact ⟨.stay none, hreply⟩
  | ask what question hwhat hrunning hmethod hstart =>
    have hclient := (runningClient_eq_ok hrunning).2
    rw [client_observe] at hclient
    rw [post_of_client hclient, reply?_of_client hclient]
    obtain ⟨hmoves, hdraft, -⟩ := ServerCall.moves_start hstart
    exact ⟨hmoves, hdraft⟩
  | shut hrunning hstart =>
    have hclient := (runningClient_eq_ok hrunning).2
    rw [client_observe] at hclient
    rw [post_of_client hclient, reply?_of_client hclient]
    obtain ⟨hmoves, hdraft, -⟩ := ServerCall.moves_start hstart
    exact ⟨hmoves, hdraft⟩
  | exit what s₀ hs₀ =>
    obtain ⟨hmoves, hreply, -⟩ := s₀.moves_beginExit
    rcases hs₀ with rfl | rfl
    · exact ⟨hmoves, hreply⟩
    · simpa using And.intro hmoves hreply

/-- The message of a call that has begun is one of its kind. -/
theorem Begins.worded {what : SessionCall} {b : SessionPhase ⊕ SessionResult}
    (h : Begins s what b s') (hb : b = .inl phase) : phase.Worded := by
  have hcall : ∀ {call : ServerCall} {method : String} {params : Json} {limit : Option Nat}
      {c c' : Client}, ServerCall.start method params limit c = .ok (call, c') →
      method ∈ ["textDocument/documentSymbol", "textDocument/hover", "textDocument/definition",
        "textDocument/references", "textDocument/documentHighlight", "shutdown"] →
      ∀ d ∈ call.draft?, MessageKind.of d.message = .question := by
    intro call method params limit c c' hstart hmethod d hd
    rw [(ServerCall.moves_start hstart).2.2 d hd, MessageKind.of_requestMessage]
    exact MessageKind.ofMethod_question hmethod
  cases h with
  | start => obtain rfl := Sum.inl.inj hb; simp [SessionPhase.Worded, SessionPhase.draft?]
  | wait => obtain rfl := Sum.inl.inj hb; simp [SessionPhase.Worded, SessionPhase.draft?]
  | atOnce => cases hb
  | tell hrunning hsent hstart =>
    obtain rfl := Sum.inl.inj hb
    rintro d hd
    obtain rfl := Option.some.inj hd
    rw [(Note.moves_start hstart).2]
    exact MessageKind.of_noteMessage _ _
  | enter => obtain rfl := Sum.inl.inj hb; simp [SessionPhase.Worded, SessionPhase.draft?]
  | ask what question hwhat hrunning hmethod hstart =>
    obtain rfl := Sum.inl.inj hb
    exact hcall hstart hmethod
  | shut hrunning hstart =>
    obtain rfl := Sum.inl.inj hb
    exact hcall hstart (by simp)
  | exit what s₀ => exact s₀.moves_beginExit.2.2 phase hb

/-- How the post changes when a call goes on: it may write its message, and queue up with another. -/
theorem Goes.moves (h : Goes now s phase phase' s') :
    (∃ p, s.post.Moves phase.draft? none p ∧ p.Moves none phase'.draft? s'.post) ∧
      s'.reply? = s.reply? := by
  cases h with
  | @send c c' uri language text digest ticket note hholder hclient hopen hticket hc' =>
    subst hc'
    rw [post_of_client hclient, reply?_of_client hclient]
    obtain ⟨noteTicket, message⟩ := note
    obtain rfl := hticket
    exact ⟨⟨c.post, .stay none, .enter message⟩, rfl⟩
  | await question hclient hturn =>
    obtain ⟨hmoves, hnone, hdraft⟩ := ServerCall.moves_moved hturn
    rw [post_of_client hclient, reply?_of_client hclient, SessionPhase.draft?, SessionPhase.draft?,
      hnone]
    exact ⟨⟨_, hmoves, .stay none⟩, hdraft⟩
  | awaitShutdown hclient hturn =>
    obtain ⟨hmoves, hnone, hdraft⟩ := ServerCall.moves_moved hturn
    rw [post_of_client hclient, reply?_of_client hclient, SessionPhase.draft?, SessionPhase.draft?,
      hnone]
    exact ⟨⟨_, hmoves, .stay none⟩, hdraft⟩
  | exit hclient hturn hstart =>
    obtain ⟨hmoves, hdraft⟩ := ServerCall.moves_finished hturn
    rw [post_of_client hclient, reply?_of_client hclient]
    exact ⟨⟨_, hmoves, (Note.moves_start hstart).1⟩, (Note.draft?_start hstart).trans hdraft⟩

/-- The message of a call that goes on is one of its kind. -/
theorem Goes.worded (h : Goes now s phase phase' s') : phase'.Worded := by
  rintro d hd
  cases h with
  | send hholder hclient hopen hticket hc' hmessage =>
    obtain rfl := Option.some.inj hd
    rw [hmessage]
    exact MessageKind.of_textMessage _ _ _ _
  | await question hclient hturn =>
    rw [SessionPhase.draft?, (ServerCall.moves_moved hturn).2.1] at hd
    cases hd
  | awaitShutdown hclient hturn =>
    rw [SessionPhase.draft?, (ServerCall.moves_moved hturn).2.1] at hd
    cases hd
  | exit hclient hturn hstart =>
    obtain rfl := Option.some.inj hd
    rw [(Note.moves_start hstart).2]
    exact MessageKind.of_noteMessage _ _

/-- How the post changes when a call is over. -/
theorem Ends.moves {r : SessionResult} (h : Ends now s phase r s') :
    s.post.Moves phase.draft? none s'.post ∧ s'.reply? = s.reply? := by
  have hnote : ∀ {note : Note} {c c' : Client} {r : Except SessionError Unit},
      s.client = some c → note.turn c = .finished r c' →
      s.post.Moves (some note) none c'.post ∧ c'.draft? = s.reply? := by
    intro note c c' r hclient hturn
    rw [post_of_client hclient, reply?_of_client hclient]
    exact ⟨Note.moves_turn hturn, Note.draft?_turn hturn⟩
  cases h with
  | shaken => exact ⟨.stay none, rfl⟩
  | settled => exact ⟨by rw [post_observe]; exact .stay none, s.reply?_observe⟩
  | told hclient hturn => exact hnote hclient hturn
  | known => exact ⟨.stay none, rfl⟩
  | refused => exact ⟨.stay none, rfl⟩
  | sent hclient hturn => exact hnote hclient hturn
  | failed hclient hturn => exact hnote hclient hturn
  | answered question hclient hturn =>
    rw [post_of_client hclient, reply?_of_client hclient]
    exact ServerCall.moves_finished hturn
  | shut hclient hturn =>
    rw [post_of_client hclient, reply?_of_client hclient]
    exact ServerCall.moves_finished hturn
  | exited hclient hturn => exact hnote hclient hturn

/-- A call that is given up leaves the queue of the writer. -/
theorem post_drop (phase : SessionPhase) (s : Session) :
    (drop phase s).post = (match phase.draft? with
      | some d => s.post.leave d.ticket
      | none => s.post) ∧ (drop phase s).reply? = s.reply? := by
  have hfresh : ∀ ticket, Post.fresh.leave ticket = Post.fresh := fun ticket ↦ rfl
  have hcall : ∀ call : ServerCall,
      ((s.client.map call.drop).map Client.post).getD .fresh = (match call.draft? with
        | some d => s.post.leave d.ticket
        | none => s.post) ∧ (s.client.map call.drop).bind Client.draft? = s.reply? := by
    intro call
    cases hclient : s.client with
    | none =>
      refine ⟨?_, by simp [reply?, hclient]⟩
      simp only [post, hclient, Option.map_none, Option.getD_none, hfresh]
      split <;> rfl
    | some c =>
      rw [post_of_client hclient, reply?_of_client hclient]
      exact call.post_drop c
  cases phase with
  | awaitingHandshake => exact ⟨rfl, rfl⟩
  | awaitingReady => exact ⟨rfl, rfl⟩
  | queued => exact ⟨rfl, rfl⟩
  | telling note | sending _ _ _ note | exiting note =>
    simp only [drop, post, reply?, leaveSlot, changeSlot, SessionPhase.draft?]
    cases s.client with
    | none => exact ⟨rfl, rfl⟩
    | some c => exact ⟨rfl, rfl⟩
  | asking question call => exact hcall call
  | closing call => exact hcall call

/-- What comes of a launch queues up with the first request, if the server was started. -/
theorem launched_cases (s : Session) (started : Except SessionError Unit) :
    (∃ e, s.launched started = s.handshakeFailed e) ∨
      ∃ call c n, s.launched started = { s.withClient c with handshake := .asking call } ∧
        call.draft? = some n ∧ Post.fresh.Moves none (some n) c.post ∧
        MessageKind.of n.message = .greeting ∧ c.draft? = none := by
  cases started with
  | error e => exact Or.inl ⟨e, rfl⟩
  | ok _ =>
    simp only [launched]
    cases hclient : Client.start s.checkout s.options.server.requestTimeout with
    | error e => exact Or.inl ⟨e, rfl⟩
    | ok c =>
      obtain ⟨-, -, -, hopen⟩ := Client.of_start hclient
      have hc : c.post = .fresh ∧ c.draft? = none := by
        simp only [Client.start] at hclient
        split at hclient
        · simp at hclient
        · obtain rfl := Except.ok.inj hclient
          exact ⟨rfl, rfl⟩
      cases hstart : ServerCall.start "initialize" (initializeParams s.options.processId c)
          s.options.server.initializeTimeout c with
      | error e => simp [ServerCall.start, hopen] at hstart
      | ok asked =>
        obtain ⟨call, c'⟩ := asked
        obtain ⟨hmoves, hdraft, hmessage⟩ := ServerCall.moves_start hstart
        obtain ⟨n, hn⟩ : ∃ n, call.draft? = some n := by
          obtain ⟨-, -, -, -, -, ticket, rfl⟩ := ServerCall.start_eq_ok hstart
          exact ⟨_, rfl⟩
        rw [hn, hc.1] at hmoves
        refine Or.inr ⟨call, c', n, by simp only [hstart], hn, hmoves, ?_, hdraft.trans hc.2⟩
        rw [hmessage n hn]
        exact MessageKind.of_requestMessage _ _ _

theorem moves_launched (started : Except SessionError Unit) (h : s.client = none) :
    s.post.Moves none (s.launched started).handshake.draft? (s.launched started).post ∧
      (s.launched started).reply? = none ∧
      ∀ d ∈ (s.launched started).handshake.draft?, MessageKind.of d.message = .greeting := by
  rcases s.launched_cases started with ⟨e, heq⟩ | ⟨call, c, n, heq, hn, hmoves, hkind, hdraft⟩
  · rw [heq]
    exact ⟨.stay none, by simp [handshakeFailed, reply?, h], nofun⟩
  · have hpost : s.post = .fresh := by simp [post, h]
    rw [heq, hpost]
    refine ⟨?_, hdraft, fun d hd ↦ ?_⟩
    · rw [Handshake.draft?, hn]
      exact hmoves
    · rw [Handshake.draft?, hn] at hd
      rw [← Option.some.inj hd, hkind]

/-- What the handshake does to the post when it goes on: its request is written. -/
theorem moves_handshakeTurn {r : Unit}
    (h : handshakeTurn now s = .moved r s' ∨ handshakeTurn now s = .finished r s') :
    s.post.Moves s.handshake.draft? none s'.post ∧ s'.handshake.draft? = none ∧
      s'.reply? = s.reply? := by
  rcases h with h | h
  · obtain ⟨call, call', c, c', hhandshake, hclient, hturn, rfl⟩ := exists_call_of_handshakeTurn_moved h
    rw [post_of_client hclient, reply?_of_client hclient, hhandshake]
    exact ServerCall.moves_moved hturn
  · obtain ⟨call, c, c', r', hhandshake, hclient, hturn, rfl⟩ := exists_call_of_handshakeTurn_finished h
    obtain ⟨hmoves, hdraft⟩ := ServerCall.moves_finished hturn
    rw [post_of_client hclient, reply?_of_client hclient, hhandshake]
    have hanswered : ((s.withClient c').handshakeAnswered r').client = some c' ∧
        ((s.withClient c').handshakeAnswered r').handshake.draft? = none := by
      cases r' with
      | error e => exact ⟨rfl, rfl⟩
      | ok answer =>
        simp only [handshakeAnswered]
        split <;> exact ⟨rfl, rfl⟩
    rw [post_of_client hanswered.1, reply?_of_client hanswered.1]
    exact ⟨hmoves, hanswered.2, hdraft⟩

end Session

end CodeNav
