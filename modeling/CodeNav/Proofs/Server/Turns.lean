import CodeNav.Proofs.Server.Calls

/-!
# The turns of calls on a session

What a call on a session may do when it begins, when it goes on, and when it is over, is said here
once, with the state of the session that it leads to. Later modules split on these cases and do not
open the turns themselves.

## Main definitions

* `Session.Begins`: how a call begins
* `Session.Goes`: how a call goes on
* `Session.Ends`: how a call is over

## Main statements

* `Session.begins_begin`, `Session.goes_of_turn`, `Session.ends_of_turn`: the turns do nothing else
* `Session.slot_enterSlot`, `Session.slot_leaveSlot`, `Session.slot_remember`: what is known of a
  document after a call has queued up for it, has left it, and has told the server its text
-/

namespace CodeNav

namespace Session

variable {s s' : Session} {c c' : Client} {fs : FileSystem} {now : Nat}

/-! ### What is known of a document -/

/-- What is known of a document, which may be nothing yet. -/
def slot (s : Session) (uri : String) : DocumentSlot :=
  (s.slot? uri).getD ⟨uri, .free, none⟩

theorem slot_of_documents (h : s'.documents = s.documents) (uri : String) :
    s'.slot uri = s.slot uri := by
  simp only [slot, slot?, h]

theorem slot?_changeSlot {f : DocumentSlot → DocumentSlot} (hf : ∀ d, (f d).uri = d.uri)
    (s : Session) (uri other : String) :
    (s.changeSlot uri f).slot? other =
      if other = uri then (s.slot? other).map f else s.slot? other := by
  have huri : ∀ d : DocumentSlot, (if d.uri = uri then f d else d).uri = d.uri := by
    intro d
    split
    · exact hf d
    · rfl
  simp only [changeSlot, slot?, List.find?_map]
  have hcomp : ((fun d : DocumentSlot ↦ decide (d.uri = other)) ∘
      fun d ↦ if d.uri = uri then f d else d) = fun d ↦ decide (d.uri = other) := by
    funext d
    simp [huri]
  rw [hcomp]
  split
  · rename_i h
    subst h
    cases hfind : s.documents.find? fun d ↦ decide (d.uri = other) with
    | none => rfl
    | some d =>
      have hd : d.uri = other := by simpa using List.find?_some hfind
      simp [hd]
  · rename_i h
    cases hfind : s.documents.find? fun d ↦ decide (d.uri = other) with
    | none => rfl
    | some d =>
      have hd : d.uri = other := by simpa using List.find?_some hfind
      simp [hd, h]

/-- A document has a slot once somebody has queued up for it. -/
theorem slot?_withSlot (s : Session) (uri other : String) :
    (s.withSlot uri).slot? other = if other = uri then some (s.slot other) else s.slot? other := by
  simp only [withSlot]
  split
  · rename_i hsome
    split
    · rename_i h
      subst h
      obtain ⟨d, hd⟩ := Option.isSome_iff_exists.mp hsome
      simp [slot, hd]
    · rfl
  · rename_i hnone
    have hnone : s.slot? uri = none := by simpa using hnone
    simp only [slot?, List.find?_append]
    split
    · rename_i h
      subst h
      simp only [slot?] at hnone
      simp [slot, slot?, hnone]
    · rename_i h
      have hne : uri ≠ other := fun heq ↦ h heq.symm
      simp [hne]

/-- Who queues up for a document gets the next ticket. -/
theorem slot_enterSlot (s : Session) (uri other : String) :
    (s.enterSlot uri).1 = (s.slot uri).lock.enter.1 ∧
      (s.enterSlot uri).2.slot other =
        if other = uri then { s.slot uri with lock := (s.slot uri).lock.enter.2 }
        else s.slot other := by
  have hslot : (s.withSlot uri).slot? uri = some (s.slot uri) := by simp [slot?_withSlot]
  simp only [enterSlot, hslot, true_and]
  rw [slot, slot?_changeSlot (by exact fun _ ↦ rfl), slot?_withSlot]
  split
  · rename_i h
    subst h
    rfl
  · rfl

/-- Who queues up for a document changes nothing else. -/
theorem exists_enterSlot_eq (s : Session) (uri : String) :
    ∃ documents, (s.enterSlot uri).2 = { s with documents := documents } := by
  have hslot : ∃ documents, s.withSlot uri = { s with documents := documents } := by
    simp only [withSlot]
    split
    · exact ⟨_, rfl⟩
    · exact ⟨_, rfl⟩
  obtain ⟨documents, hdocuments⟩ := hslot
  simp only [enterSlot, hdocuments]
  split
  · exact ⟨_, rfl⟩
  · exact ⟨_, rfl⟩

/-- Who leaves a document takes nothing but the ticket away. -/
theorem slot_leaveSlot (s : Session) (uri other : String) (ticket : Nat) :
    (s.leaveSlot uri ticket).slot other =
      if other = uri then { s.slot uri with lock := (s.slot uri).lock.leave ticket }
      else s.slot other := by
  rw [slot, leaveSlot, slot?_changeSlot (by exact fun _ ↦ rfl)]
  split
  · rename_i h
    subst h
    cases hd : s.slot? other <;> simp [slot, hd, FairLock.leave, FairLock.free]
  · rfl

/-- What the server has been told is remembered of a document for which somebody has queued up. -/
theorem slot_remember (s : Session) {uri : String} (other : String) (opened : OpenDocument)
    (h : (s.slot uri).lock.queue ≠ []) :
    (s.remember uri opened).slot other =
      if other = uri then { s.slot uri with opened := some opened } else s.slot other := by
  rw [slot, remember, slot?_changeSlot (by exact fun _ ↦ rfl)]
  split
  · rename_i hother
    subst hother
    cases hd : s.slot? other with
    | none => simp [slot, hd, FairLock.free] at h
    | some d => simp [slot, hd]
  · rfl

/-! ### A look at the session -/

section Observe

variable (s)

@[simp]
theorem client_observe : s.observe.client = s.client := by
  simp only [observe]
  split <;> rfl

@[simp]
theorem handshake_observe : s.observe.handshake = s.handshake := by
  simp only [observe]
  split <;> rfl

@[simp]
theorem initializedSent_observe : s.observe.initializedSent = s.initializedSent := by
  simp only [observe]
  split <;> rfl

@[simp]
theorem slot_observe (uri : String) : s.observe.slot uri = s.slot uri := by
  simp only [observe]
  split <;> rfl

@[simp]
theorem documentFile_observe (path : String) : s.observe.documentFile path = s.documentFile path := by
  simp only [observe]
  split <;> rfl

@[simp]
theorem documentUri_observe (path : String) : s.observe.documentUri path = s.documentUri path := by
  simp only [observe]
  split <;> rfl

end Observe

/-! ### Calls begin -/

/-- The client of a session that runs after a look at it still has its server. -/
theorem closed_of_runningClient_observe (h : s.observe.runningClient = .ok c) : c.closed = false := by
  obtain ⟨hstate, hclient⟩ := runningClient_eq_ok h
  simp only [observe] at hstate hclient
  split at hstate
  · simp at hstate
  · rename_i hopen
    simp only [hopen, if_false] at hclient
    rw [hclient] at hopen
    simpa [hstate] using hopen

/-- How a call on a session begins. -/
inductive Begins (s : Session) : SessionCall → SessionPhase ⊕ SessionResult → Session → Prop
  /-- The server is about to be started. -/
  | start (context : Context) (hcreated : s.state = .created) :
      Begins s (.start context) (.inl .awaitingHandshake)
        { s with
          state := .initializing
          handshake := .launching
            (LaunchSpec.of context s.options.server s.options.usualCommand s.checkout) }
  | wait (hstate : s.state = .initializing) : Begins s .ready (.inl .awaitingReady) s
  /-- There is nothing to wait for. -/
  | atOnce (what : SessionCall) (r : SessionResult) : Begins s what (.inr r) s.observe
  | tell {c c' : Client} {note : Note} (hrunning : s.observe.runningClient = .ok c)
      (hsent : s.initializedSent = false)
      (hstart : Note.start "initialized" (.object []) c = .ok (note, c')) :
      Begins s .initialized (.inl (.telling note))
        ({ s.observe with initializedSent := true }.withClient c')
  | enter {c : Client} {path text uri : String} {file : Path}
      (hrunning : s.observe.runningClient = .ok c) (hfile : s.documentFile path = .ok file)
      (huri : s.documentUri path = .ok uri) :
      Begins s (.didOpen path text)
        (.inl (.queued uri (s.slot uri).lock.enter.1 (languageOf file) text (Digest.ofText text)))
        (s.observe.enterSlot uri).2
  | ask {c c' : Client} {call : ServerCall} {method : String} {params : Json} {limit : Option Nat}
      (what : SessionCall) (question : Question) (hwhat : ∀ path text, what ≠ .didOpen path text)
      (hrunning : s.observe.runningClient = .ok c)
      (hmethod : method ∈ ["textDocument/documentSymbol", "textDocument/hover",
        "textDocument/definition", "textDocument/references", "textDocument/documentHighlight",
        "shutdown"])
      (hstart : ServerCall.start method params limit c = .ok (call, c')) :
      Begins s what (.inl (.asking question call)) (s.observe.withClient c')
  | shut {c c' : Client} {call : ServerCall} {limit : Option Nat}
      (hrunning : s.observe.runningClient = .ok c)
      (hstart : ServerCall.start "shutdown" .null limit c = .ok (call, c')) :
      Begins s .close (.inl (.closing call)) (s.observe.withClient c')
  | exit (what : SessionCall) (s₀ : Session) (hs₀ : s₀ = s ∨ s₀ = s.observe)
      (hwhat : what = .exit ∨ what = .close) :
      Begins s what s₀.beginExit.1 s₀.beginExit.2

theorem begins_askAbout (what : SessionCall) (question : Question) {method : String} (path : String)
    (params : String → Json) (hwhat : ∀ path text, what ≠ .didOpen path text)
    (hmethod : method ∈ ["textDocument/documentSymbol", "textDocument/hover",
      "textDocument/definition", "textDocument/references", "textDocument/documentHighlight",
      "shutdown"]) :
    Begins s what (askAbout question method path params s.observe).1
      (askAbout question method path params s.observe).2 := by
  simp only [askAbout]
  split
  · exact .atOnce what _
  · rename_i c hrunning
    split
    · exact .atOnce what _
    · simp only [ask]
      split
      · exact .atOnce what _
      · rename_i hstart
        exact .ask what question hwhat hrunning hmethod hstart

/-- Every call begins in one of these ways. -/
theorem begins_begin (s : Session) (what : SessionCall) :
    Begins s what (begin what s).1 (begin what s).2 := by
  cases what with
  | start context =>
    simp only [begin]
    split
    · rename_i hcreated
      exact .start context hcreated
    · split <;> exact .atOnce _ _
  | ready =>
    simp only [begin]
    split
    · rename_i hstate
      exact .wait hstate
    · exact .atOnce _ _
  | initialized =>
    simp only [begin]
    split
    · exact .atOnce _ _
    · rename_i c hrunning
      split
      · exact .atOnce _ _
      · rename_i hsent
        split
        · -- The client of a session that runs takes messages.
          rename_i hstart
          simp [Note.start, closed_of_runningClient_observe hrunning] at hstart
        · rename_i hstart
          exact .tell hrunning (by simpa using hsent) hstart
  | didOpen path text =>
    simp only [begin]
    split
    · exact .atOnce _ _
    · rename_i c hrunning
      split
      · rename_i file uri hfile huri
        simp only [(s.observe.slot_enterSlot uri uri).1, slot_observe]
        rw [documentFile_observe] at hfile
        rw [documentUri_observe] at huri
        exact .enter hrunning hfile huri
      · exact .atOnce _ _
      · exact .atOnce _ _
  | symbols path =>
    exact begins_askAbout _ _ path _ (by simp) (by simp [outlineMethod])
  | place question path position =>
    exact begins_askAbout _ _ path _ (by simp)
      (by cases question <;> simp [placeMethod, highlightMethod])
  | shutdown =>
    simp only [begin]
    split
    · exact .atOnce _ _
    · rename_i c hrunning
      simp only [ask]
      split
      · exact .atOnce _ _
      · rename_i hstart
        exact .ask _ _ (by simp) hrunning (by simp) hstart
  | exit => exact .exit _ s (.inl rfl) (.inl rfl)
  | close =>
    simp only [begin]
    split
    · rename_i hstate
      split
      · exact .exit _ s.observe (.inr rfl) (.inr rfl)
      · rename_i c hclient
        have hrunning : s.observe.runningClient = .ok c := by
          simp only [runningClient, hstate, hclient]
        split
        · exact .exit _ s.observe (.inr rfl) (.inr rfl)
        · rename_i hstart
          exact .shut hrunning hstart
    · exact .exit _ s.observe (.inr rfl) (.inr rfl)

/-- An exit either has nobody to tell, or queues up with its message. -/
theorem beginExit_eq (s : Session) :
    s.beginExit = (.inr (.ok .done), { s with state := .closed }) ∨
      ∃ c c' note, s.client = some c ∧ Note.start "exit" .null c = .ok (note, c') ∧
        s.beginExit = (.inl (.exiting note), { s with state := .closed }.withClient c') := by
  simp only [beginExit]
  split
  · exact Or.inl rfl
  · rename_i c hclient
    split
    · exact Or.inl rfl
    · rename_i note c' hstart
      exact Or.inr ⟨c, c', note, hclient, hstart, rfl⟩

/-! ### Calls go on -/

/-- The message that tells the server the text of a document, of which it has been told `opened`. -/
def textMessage (uri language text : String) : Option OpenDocument → Json
  | none => Client.noteMessage "textDocument/didOpen" (openParams uri language text)
  | some opened =>
    Client.noteMessage "textDocument/didChange" (changeParams uri (opened.version + 1) text)

/-- What is known of a document after the server has been told its text. -/
def nextDocument (digest : String) : Option OpenDocument → OpenDocument
  | none => ⟨1, digest⟩
  | some opened => ⟨opened.version + 1, digest⟩

/-- How a call on a session goes on. -/
inductive Goes (now : Nat) (s : Session) : SessionPhase → SessionPhase → Session → Prop
  /-- A call has the document for itself, and the server has not been told its text last. -/
  | send {c c' : Client} {uri language text digest : String} {ticket : Nat} {note : Note}
      (hholder : (s.slot uri).lock.isHolder ticket = true) (hclient : s.client = some c)
      (hopen : c.closed = false) (hticket : note.ticket = c.queue.1) (hc' : c' = c.queue.2)
      (hmessage : note.message = textMessage uri language text (s.slot uri).opened)
      (hnew : ∀ opened, (s.slot uri).opened = some opened → opened.digest ≠ digest) :
      Goes now s (.queued uri ticket language text digest)
        (.sending uri ticket (nextDocument digest (s.slot uri).opened) note) (s.withClient c')
  | await {c c' : Client} {call call' : ServerCall} (question : Question)
      (hclient : s.client = some c) (hturn : call.turn now c = .moved call' c') :
      Goes now s (.asking question call) (.asking question call') (s.withClient c')
  | awaitShutdown {c c' : Client} {call call' : ServerCall} (hclient : s.client = some c)
      (hturn : call.turn now c = .moved call' c') :
      Goes now s (.closing call) (.closing call') (s.withClient c')
  /-- A server that was asked to shut down is told to exit. -/
  | exit {c c' c'' : Client} {call : ServerCall} {note : Note} {r : Except SessionError Json}
      (hclient : s.client = some c) (hturn : call.turn now c = .finished r c')
      (hstart : Note.start "exit" .null c' = .ok (note, c'')) :
      Goes now s (.closing call) (.exiting note) { s.withClient c'' with state := .closed }

/-- How a call on a session is over. -/
inductive Ends (now : Nat) (s : Session) : SessionPhase → SessionResult → Session → Prop
  | shaken {r : SessionResult} : Ends now s .awaitingHandshake r s
  | settled {r : SessionResult} : Ends now s .awaitingReady r s.observe
  | told {c c' : Client} {note : Note} {r : Except SessionError Unit} (hclient : s.client = some c)
      (hturn : note.turn c = .finished r c') :
      Ends now s (.telling note) (r.map fun _ ↦ .done) (s.withClient c')
  /-- The server has been told the text of the document already. -/
  | known {uri language text digest : String} {ticket : Nat} {opened : OpenDocument}
      (hholder : (s.slot uri).lock.isHolder ticket = true)
      (hopened : (s.slot uri).opened = some opened) (hdigest : opened.digest = digest) :
      Ends now s (.queued uri ticket language text digest) (.ok .done) (s.leaveSlot uri ticket)
  | refused {uri language text digest : String} {ticket : Nat} (e : SessionError)
      (hholder : (s.slot uri).lock.isHolder ticket = true) :
      Ends now s (.queued uri ticket language text digest) (.error e) (s.leaveSlot uri ticket)
  /-- The server has been told the text. -/
  | sent {c c' : Client} {uri : String} {ticket : Nat} {opened : OpenDocument} {note : Note}
      (hclient : s.client = some c) (hturn : note.turn c = .finished (.ok ()) c') :
      Ends now s (.sending uri ticket opened note) (.ok .done)
        (((s.withClient c').remember uri opened).leaveSlot uri ticket)
  | failed {c c' : Client} {uri : String} {ticket : Nat} {opened : OpenDocument} {note : Note}
      {e : SessionError} (hclient : s.client = some c)
      (hturn : note.turn c = .finished (.error e) c') :
      Ends now s (.sending uri ticket opened note) (.error e)
        ((s.withClient c').leaveSlot uri ticket)
  | answered {c c' : Client} {call : ServerCall} {r : Except SessionError Json}
      {result : SessionResult} (question : Question) (hclient : s.client = some c)
      (hturn : call.turn now c = .finished r c') :
      Ends now s (.asking question call) result (s.withClient c')
  | shut {c c' : Client} {call : ServerCall} {r : Except SessionError Json} {result : SessionResult}
      (hclient : s.client = some c) (hturn : call.turn now c = .finished r c') :
      Ends now s (.closing call) result { s.withClient c' with state := .closed }
  | exited {c c' : Client} {note : Note} {r : Except SessionError Unit} {result : SessionResult}
      (hclient : s.client = some c) (hturn : note.turn c = .finished r c') :
      Ends now s (.exiting note) result (s.withClient c')

section Turns

variable {phase phase' : SessionPhase} {r : SessionResult}

/-- The turn of a message that has no answer. -/
theorem noteTurn_eq_moved {note : Note} {p : Note → SessionPhase}
    {finish : Except SessionError Unit → Session → Turn Session SessionPhase SessionResult}
    (h : noteTurn note p finish s = .moved phase' s') :
    ∃ c c' r, s.client = some c ∧ note.turn c = .finished r c' ∧
      finish r (s.withClient c') = .moved phase' s' := by
  simp only [noteTurn] at h
  split at h
  · simp at h
  · rename_i c hclient
    rcases Turn.map_eq_moved.mp h with ⟨n, hlift, -⟩ | ⟨r, s₁, hlift, hend⟩
    · obtain ⟨c', hturn, -⟩ := Turn.lift_eq_moved.mp hlift
      exact absurd hturn Note.turn_ne_moved
    · obtain ⟨c', hturn, rfl⟩ := Turn.lift_eq_finished.mp hlift
      exact ⟨c, c', r, hclient, hturn, hend⟩

theorem noteTurn_eq_finished {note : Note} {p : Note → SessionPhase}
    {finish : Except SessionError Unit → Session → Turn Session SessionPhase SessionResult}
    (h : noteTurn note p finish s = .finished r s') :
    ∃ c c' r₀, s.client = some c ∧ note.turn c = .finished r₀ c' ∧
      finish r₀ (s.withClient c') = .finished r s' := by
  simp only [noteTurn] at h
  split at h
  · simp at h
  · rename_i c hclient
    obtain ⟨r₀, s₁, hlift, hend⟩ := Turn.map_eq_finished.mp h
    obtain ⟨c', hturn, rfl⟩ := Turn.lift_eq_finished.mp hlift
    exact ⟨c, c', r₀, hclient, hturn, hend⟩

/-- The turn of a request. -/
theorem callTurn_eq_moved {call : ServerCall} {p : ServerCall → SessionPhase}
    {finish : Except SessionError Json → Session → Turn Session SessionPhase SessionResult}
    (h : callTurn now call p finish s = .moved phase' s') :
    ∃ c c', s.client = some c ∧
      ((∃ call', call.turn now c = .moved call' c' ∧ phase' = p call' ∧ s' = s.withClient c') ∨
        ∃ r, call.turn now c = .finished r c' ∧ finish r (s.withClient c') = .moved phase' s') := by
  simp only [callTurn] at h
  split at h
  · simp at h
  · rename_i c hclient
    rcases Turn.map_eq_moved.mp h with ⟨call', hlift, rfl⟩ | ⟨r, s₁, hlift, hend⟩
    · obtain ⟨c', hturn, rfl⟩ := Turn.lift_eq_moved.mp hlift
      exact ⟨c, c', hclient, Or.inl ⟨call', hturn, rfl, rfl⟩⟩
    · obtain ⟨c', hturn, rfl⟩ := Turn.lift_eq_finished.mp hlift
      exact ⟨c, c', hclient, Or.inr ⟨r, hturn, hend⟩⟩

theorem callTurn_eq_finished {call : ServerCall} {p : ServerCall → SessionPhase}
    {finish : Except SessionError Json → Session → Turn Session SessionPhase SessionResult}
    (h : callTurn now call p finish s = .finished r s') :
    ∃ c c' r₀, s.client = some c ∧ call.turn now c = .finished r₀ c' ∧
      finish r₀ (s.withClient c') = .finished r s' := by
  simp only [callTurn] at h
  split at h
  · simp at h
  · rename_i c hclient
    obtain ⟨r₀, s₁, hlift, hend⟩ := Turn.map_eq_finished.mp h
    obtain ⟨c', hturn, rfl⟩ := Turn.lift_eq_finished.mp hlift
    exact ⟨c, c', r₀, hclient, hturn, hend⟩

/-- A note that is started waits with its message for the next ticket. -/
theorem note_start_eq_ok {method : String} {params : Json} {note : Note}
    (h : Note.start method params c = .ok (note, c')) :
    c.closed = false ∧ note = ⟨c.queue.1, Client.noteMessage method params⟩ ∧ c' = c.queue.2 := by
  simp only [Note.start] at h
  split at h
  · simp at h
  · rename_i hopen
    obtain ⟨rfl, rfl⟩ := Prod.mk.inj (Except.ok.inj h)
    exact ⟨by simpa using hopen, rfl, rfl⟩

/-- A call that waits for a document goes on only when it has the document for itself. -/
theorem turn_queued {uri language text digest : String} {ticket : Nat} :
    turn fs now (.queued uri ticket language text digest) s =
      if (s.slot uri).lock.isHolder ticket then sendText uri ticket language text digest s
      else .parked none := by
  cases hslot : s.slot? uri with
  | none => simp [turn, hslot, slot, FairLock.isHolder, FairLock.free]
  | some d => simp [turn, hslot, slot]

theorem opened_slot (s : Session) (uri : String) :
    (s.slot uri).opened = (s.slot? uri).bind (·.opened) := by
  cases hslot : s.slot? uri <;> simp [slot, hslot]

/-- Every call goes on in one of these ways. -/
theorem goes_of_turn (h : turn fs now phase s = .moved phase' s') : Goes now s phase phase' s' := by
  cases phase with
  | awaitingHandshake =>
    simp only [turn] at h
    split at h <;> simp at h
  | awaitingReady =>
    simp only [turn] at h
    split at h <;> simp at h
  | telling note =>
    obtain ⟨c, c', r, -, -, h⟩ := noteTurn_eq_moved h
    simp at h
  | queued uri ticket language text digest =>
    rw [turn_queued] at h
    split at h
    · rename_i hholder
      simp only [sendText, ← opened_slot] at h
      split at h
      · simp at h
      · rename_i c hclient
        split at h
        · rename_i opened hopened
          split at h
          · simp at h
          · rename_i hnew
            split at h
            · simp at h
            · rename_i note c' hstart
              obtain ⟨rfl, rfl⟩ := Turn.moved.inj h
              obtain ⟨hopen, rfl, rfl⟩ := note_start_eq_ok hstart
              have hgoes : Goes now s (.queued uri ticket language text digest)
                  (.sending uri ticket (nextDocument digest (s.slot uri).opened)
                    ⟨c.queue.1, textMessage uri language text (some opened)⟩)
                  (s.withClient c.queue.2) :=
                .send hholder hclient hopen rfl rfl (by rw [hopened]) (by simpa [hopened] using hnew)
              rwa [hopened] at hgoes
        · rename_i hopened
          split at h
          · simp at h
          · rename_i note c' hstart
            obtain ⟨rfl, rfl⟩ := Turn.moved.inj h
            obtain ⟨hopen, rfl, rfl⟩ := note_start_eq_ok hstart
            have hgoes : Goes now s (.queued uri ticket language text digest)
                (.sending uri ticket (nextDocument digest (s.slot uri).opened)
                  ⟨c.queue.1, textMessage uri language text none⟩)
                (s.withClient c.queue.2) :=
              .send hholder hclient hopen rfl rfl (by rw [hopened]) (by simp [hopened])
            rwa [hopened] at hgoes
    · simp at h
  | sending uri ticket opened note =>
    obtain ⟨c, c', r, -, -, h⟩ := noteTurn_eq_moved h
    split at h <;> simp at h
  | asking question call =>
    obtain ⟨c, c', hclient, ⟨call', hturn, rfl, rfl⟩ | ⟨r, -, h⟩⟩ := callTurn_eq_moved h
    · exact .await question hclient hturn
    · split at h <;> simp at h
  | closing call =>
    obtain ⟨c, c', hclient, ⟨call', hturn, rfl, rfl⟩ | ⟨r, hturn, h⟩⟩ := callTurn_eq_moved h
    · exact .awaitShutdown hclient hturn
    · rcases (s.withClient c').beginExit_eq with heq | ⟨c₁, c₂, note, hc₁, hstart, heq⟩
      · simp [heq, entered] at h
      · obtain rfl := Option.some.inj hc₁
        rw [heq] at h
        obtain ⟨rfl, rfl⟩ := Turn.moved.inj h
        exact .exit hclient hturn hstart
  | exiting note =>
    obtain ⟨c, c', r, -, -, h⟩ := noteTurn_eq_moved h
    simp at h

/-- Every call is over in one of these ways. -/
theorem ends_of_turn (h : turn fs now phase s = .finished r s') : Ends now s phase r s' := by
  cases phase with
  | awaitingHandshake =>
    simp only [turn] at h
    split at h
    · obtain ⟨-, rfl⟩ := Turn.finished.inj h
      exact .shaken
    · simp at h
  | awaitingReady =>
    simp only [turn] at h
    split at h
    · simp at h
    · obtain ⟨-, rfl⟩ := Turn.finished.inj h
      exact .settled
  | telling note =>
    obtain ⟨c, c', r₀, hclient, hturn, h⟩ := noteTurn_eq_finished h
    obtain ⟨rfl, rfl⟩ := Turn.finished.inj h
    exact .told hclient hturn
  | queued uri ticket language text digest =>
    rw [turn_queued] at h
    split at h
    · rename_i hholder
      simp only [sendText, ← opened_slot] at h
      split at h
      · obtain ⟨rfl, rfl⟩ := Turn.finished.inj h
        exact .refused _ hholder
      · split at h
        · rename_i opened hopened
          split at h
          · rename_i hdigest
            obtain ⟨rfl, rfl⟩ := Turn.finished.inj h
            exact .known hholder hopened hdigest
          · split at h
            · obtain ⟨rfl, rfl⟩ := Turn.finished.inj h
              exact .refused _ hholder
            · simp at h
        · split at h
          · obtain ⟨rfl, rfl⟩ := Turn.finished.inj h
            exact .refused _ hholder
          · simp at h
    · simp at h
  | sending uri ticket opened note =>
    obtain ⟨c, c', r₀, hclient, hturn, h⟩ := noteTurn_eq_finished h
    split at h
    · obtain ⟨rfl, rfl⟩ := Turn.finished.inj h
      exact .sent hclient hturn
    · obtain ⟨rfl, rfl⟩ := Turn.finished.inj h
      exact .failed hclient hturn
  | asking question call =>
    obtain ⟨c, c', r₀, hclient, hturn, h⟩ := callTurn_eq_finished h
    split at h <;>
    · obtain ⟨rfl, rfl⟩ := Turn.finished.inj h
      exact .answered question hclient hturn
  | closing call =>
    obtain ⟨c, c', r₀, hclient, hturn, h⟩ := callTurn_eq_finished h
    rcases (s.withClient c').beginExit_eq with heq | ⟨c₁, c₂, note, hc₁, hstart, heq⟩
    · rw [heq] at h
      obtain ⟨rfl, rfl⟩ := Turn.finished.inj h
      exact .shut hclient hturn
    · simp [heq, entered] at h
  | exiting note =>
    obtain ⟨c, c', r₀, hclient, hturn, h⟩ := noteTurn_eq_finished h
    obtain ⟨rfl, rfl⟩ := Turn.finished.inj h
    exact .exited hclient hturn

end Turns

end Session

end CodeNav
