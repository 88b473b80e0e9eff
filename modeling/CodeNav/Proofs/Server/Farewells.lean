import CodeNav.Proofs.Server.Evolution

/-!
# Servers that are told to exit

A session leaves its server in one of three ways: a look at it finds that the server's output has ended,
its handshake fails, or it is closed by a call, which tells the server to exit. Whatever else is done to
sessions keeps their servers, and what they were told.

## Main definitions

* `Client.Dismissed`: a server that was told to exit, or cannot be told any more
* `Session.Keeps`: what may become of a session, so far as its server is concerned
* `Session.Quits`, `Session.Leaves`: why a session is closed

## Main statements

* `Session.Based.keeps_begin`, `Session.Based.keeps_turn`, `Session.Based.keeps_handshakeTurn`: calls and
  the handshake keep the server
* `Session.Begins.quits`, `Session.Goes.quits`, `Session.Ends.quits`, `Session.quits_handshakeTurn`: what
  closes a session without being asked to
* `Session.leaves_begin`, `Session.leaves_of_goes`, `Session.leaves_of_finished`: a session that a call
  closes
* `Session.dismissed_of_finished`: the message that tells a server to exit was written, or could not be
-/

namespace CodeNav

/-! ### Servers -/

namespace Client

/-- The server was told to exit, unless it takes no messages or its output has ended. -/
def Dismissed (c : Client) : Prop :=
  c.closed = true ∨ c.wire.accepts = false ∨ noteMessage "exit" .null ∈ c.wire.written

/-- What was written stays written, and a server that has ended does not come back. -/
structure Keeps (c c' : Client) : Prop where
  closed : c.closed = true → c'.closed = true
  accepts : c.wire.accepts = false → c'.wire.accepts = false
  written : c.wire.written ⊆ c'.wire.written

variable {c c' c'' : Client}

theorem keeps_refl (c : Client) : c.Keeps c := ⟨id, id, List.Subset.refl _⟩

theorem Keeps.trans (h : c.Keeps c') (h' : c'.Keeps c'') : c.Keeps c'' :=
  ⟨h'.closed ∘ h.closed, h'.accepts ∘ h.accepts, List.Subset.trans h.written h'.written⟩

theorem Dismissed.of_keeps (h : c.Dismissed) (hkeeps : c.Keeps c') : c'.Dismissed := by
  rcases h with hclosed | haccepts | hwritten
  · exact Or.inl (hkeeps.closed hclosed)
  · exact Or.inr (Or.inl (hkeeps.accepts haccepts))
  · exact Or.inr (Or.inr (hkeeps.written hwritten))

/-- Writers keep the server. -/
theorem keeps_of_moves {d d' : Option Note} (h : c.post.Moves d d' c'.post)
    (hclosed : c'.closed = c.closed) : c.Keeps c' where
  closed := hclosed.trans
  accepts := h.accepts.trans
  written := by
    have hwritten : c'.wire.written = c.wire.written ∨
        ∃ n, d = some n ∧ c'.wire.written = c.wire.written ++ [n.message] := h.written
    rcases hwritten with heq | ⟨n, -, heq⟩ <;> rw [heq]
    · exact List.Subset.refl _
    · exact List.subset_append_left ..

theorem keeps_note_start {method : String} {params : Json} {n : Note}
    (h : Note.start method params c = .ok (n, c')) : c.Keeps c' :=
  keeps_of_moves (Note.moves_start h).1 (Note.alike_start h).closed

theorem keeps_note_turn {n : Note} {r : Except SessionError Unit} (h : n.turn c = .finished r c') :
    c.Keeps c' :=
  keeps_of_moves (Note.moves_turn h) (Note.alike_turn h).closed

theorem keeps_call_start {method : String} {params : Json} {limit : Option Nat} {call : ServerCall}
    (h : ServerCall.start method params limit c = .ok (call, c')) : c.Keeps c' := by
  obtain ⟨hopen, -, -, -, hopen', -⟩ := ServerCall.start_eq_ok h
  exact keeps_of_moves (ServerCall.moves_start h).1 (hopen'.trans hopen.symm)

theorem keeps_call_moved {call call' : ServerCall} {now : Nat} (h : call.turn now c = .moved call' c') :
    c.Keeps c' :=
  keeps_of_moves (ServerCall.moves_moved h).1 (ServerCall.turn_eq_moved h).1.closed

theorem keeps_call_finished {call : ServerCall} {now : Nat} {r : Except SessionError Json}
    (h : call.turn now c = .finished r c') : c.Keeps c' := by
  obtain ⟨-, c₀, hc₀, rfl⟩ := ServerCall.turn_eq_finished h
  exact keeps_of_moves (ServerCall.moves_finished h).1 hc₀.closed

theorem keeps_readerTurn (h : c.readerTurn = some c') : c.Keeps c' := by
  obtain ⟨hopen, -⟩ := readerTurn_eq_some h
  have hkeeps := (moves_readerTurn h).1
  refine ⟨fun hclosed ↦ absurd (hopen.symm.trans hclosed) nofun, hkeeps.accepts.trans, ?_⟩
  have hwritten : c'.wire.written = c.wire.written ∨
      ∃ n, c.draft? = some n ∧ c'.wire.written = c.wire.written ++ [n.message] := hkeeps.written
  rcases hwritten with heq | ⟨n, -, heq⟩ <;> rw [heq]
  · exact List.Subset.refl _
  · exact List.subset_append_left ..

end Client

namespace Session

variable {s s' s'' : Session} {c c' : Client} {now : Nat} {fs : FileSystem} {call : SessionCall}
  {phase phase' : SessionPhase} {b : SessionPhase ⊕ SessionResult}

/-! ### What a session keeps -/

/-- A session has no server before it has launched one. -/
structure Based (s : Session) : Prop where
  created : s.state = .created → s.handshake = .notBegun
  fresh : s.handshake = .notBegun → s.client = none
  launching : ∀ spec, s.handshake = .launching spec → s.client = none

/-- The server of a session is kept. -/
def KeepsClient (s s' : Session) : Prop :=
  ∀ c, s.client = some c → ∃ c', s'.client = some c' ∧ c.Keeps c'

/-- What may become of a session: it keeps its server and the outcome of its handshake, and once closed it
stays closed. -/
structure Keeps (s s' : Session) : Prop where
  closed : s.state = .closed → s'.state = .closed
  client : s.KeepsClient s'
  ended : ∀ r, s.handshake = .ended r → s'.handshake = .ended r
  based : s'.Based

theorem keepsClient_of_eq (h : s'.client = s.client) : s.KeepsClient s' :=
  fun c hc ↦ ⟨c, h.trans hc, c.keeps_refl⟩

theorem keepsClient_of_some (hs : s.client = some c) (hs' : s'.client = some c') (h : c.Keeps c') :
    s.KeepsClient s' := by
  intro c₀ hc₀
  obtain rfl := Option.some.inj (hs.symm.trans hc₀)
  exact ⟨c', hs', h⟩

theorem Keeps.trans (h : s.Keeps s') (h' : s'.Keeps s'') : s.Keeps s'' where
  closed := h'.closed ∘ h.closed
  client c hc := by
    obtain ⟨c', hc', hkeeps⟩ := h.client c hc
    obtain ⟨c'', hc'', hkeeps'⟩ := h'.client c' hc'
    exact ⟨c'', hc'', hkeeps.trans hkeeps'⟩
  ended r hr := h'.ended r (h.ended r hr)
  based := h'.based

theorem Based.keeps_self (h : s.Based) : s.Keeps s :=
  ⟨id, keepsClient_of_eq rfl, fun _ hr ↦ hr, h⟩

/-- Who uses a session beside its handshake keeps its server. -/
theorem Based.keeps_of_beside (hs : s.Based) (h : s.Beside s') (hclient : s.KeepsClient s') :
    s.Keeps s' where
  closed := h.closed
  client := hclient
  ended r hr := h.handshake.trans hr
  based := by
    refine ⟨fun hcreated ↦ ?_, fun hfresh ↦ ?_, fun spec hspec ↦ ?_⟩
    · rw [h.handshake]
      exact hs.created ((h.state_eq (by simp [hcreated])).trans hcreated)
    · exact h.client_eq_none (hs.fresh (h.handshake ▸ hfresh))
    · exact h.client_eq_none (hs.launching spec (h.handshake ▸ hspec))

theorem based_create (key : RepositoryKey) (checkout : Path) (options : SessionOptions) :
    (create key checkout options).Based :=
  ⟨fun _ ↦ rfl, fun _ ↦ rfl, nofun⟩

/-- An exit has nobody to tell because the server's output has ended, or queues up with its message. -/
theorem beginExit_cases (s : Session) :
    (s.beginExit = (.inr (.ok .done), { s with state := .closed }) ∧
        ∀ c, s.client = some c → c.closed = true) ∨
      ∃ c c' note, s.client = some c ∧ c.Keeps c' ∧
        note.message = Client.noteMessage "exit" .null ∧
          s.beginExit = (.inl (.exiting note), { s with state := .closed }.withClient c') := by
  simp only [beginExit]
  split
  · rename_i hnone
    exact Or.inl ⟨rfl, fun c hc ↦ absurd (hnone.symm.trans hc) (by simp)⟩
  · rename_i c hclient
    split
    · rename_i e hstart
      refine Or.inl ⟨rfl, fun c' hc' ↦ ?_⟩
      obtain rfl := Option.some.inj (hclient.symm.trans hc')
      by_contra hopen
      simp [Note.start, hopen] at hstart
    · rename_i note c' hstart
      exact Or.inr ⟨c, c', note, hclient, Client.keeps_note_start hstart, (Note.moves_start hstart).2, rfl⟩

theorem keepsClient_beginExit (s : Session) : s.KeepsClient s.beginExit.2 := by
  rcases s.beginExit_cases with ⟨heq, -⟩ | ⟨c, c', note, hclient, hkeeps, -, heq⟩ <;> rw [heq]
  · exact keepsClient_of_eq rfl
  · exact keepsClient_of_some hclient rfl hkeeps

theorem Begins.keepsClient (h : Begins s call b s') : s.KeepsClient s' := by
  cases h with
  | start | wait => exact keepsClient_of_eq rfl
  | atOnce => exact keepsClient_of_eq s.client_observe
  | enter =>
    obtain ⟨documents, heq⟩ := s.observe.exists_enterSlot_eq _
    rw [heq]
    exact keepsClient_of_eq s.client_observe
  | tell hrunning _ hstart =>
    have hclient := (runningClient_eq_ok hrunning).2
    rw [client_observe] at hclient
    exact keepsClient_of_some hclient rfl (Client.keeps_note_start hstart)
  | ask _ _ _ hrunning _ hstart | shut hrunning hstart =>
    have hclient := (runningClient_eq_ok hrunning).2
    rw [client_observe] at hclient
    exact keepsClient_of_some hclient rfl (Client.keeps_call_start hstart)
  | exit what s₀ hs₀ =>
    rcases hs₀ with rfl | rfl
    · exact keepsClient_beginExit _
    · have hexit := s.observe.keepsClient_beginExit
      simp only [KeepsClient, client_observe] at hexit
      exact hexit

theorem Based.keeps_begin (hs : s.Based) (call : SessionCall) : s.Keeps (begin call s).2 := by
  have hbegins := s.begins_begin call
  by_cases hstart : ∃ context, call = .start context ∧ s.state = .created
  · obtain ⟨context, rfl, hcreated⟩ := hstart
    have hnew := hs.created hcreated
    simp only [begin, hcreated]
    exact ⟨fun hclosed ↦ absurd (hcreated.symm.trans hclosed) (by simp), keepsClient_of_eq rfl,
      fun r hr ↦ absurd (hnew.symm.trans hr) (by simp), ⟨(by simp), by simp, fun _ _ ↦ hs.fresh hnew⟩⟩
  · exact hs.keeps_of_beside
      (s.beside_begin fun context hcall hcreated ↦ hstart ⟨context, hcall, hcreated⟩)
      hbegins.keepsClient

theorem Goes.keepsClient (h : Goes now s phase phase' s') : s.KeepsClient s' := by
  cases h with
  | send _ hclient _ _ hc' =>
    refine keepsClient_of_some hclient rfl ?_
    rw [hc']
    exact ⟨id, id, List.Subset.refl _⟩
  | await _ hclient hturn | awaitShutdown hclient hturn =>
    exact keepsClient_of_some hclient rfl (Client.keeps_call_moved hturn)
  | exit hclient hturn hstart =>
    exact keepsClient_of_some hclient rfl
      ((Client.keeps_call_finished hturn).trans (Client.keeps_note_start hstart))

theorem Ends.keepsClient {r : SessionResult} (h : Ends now s phase r s') : s.KeepsClient s' := by
  cases h with
  | shaken => exact keepsClient_of_eq rfl
  | settled => exact keepsClient_of_eq s.client_observe
  | known | refused => exact keepsClient_of_eq rfl
  | told hclient hturn | sent hclient hturn | failed hclient hturn | exited hclient hturn =>
    exact keepsClient_of_some hclient rfl (Client.keeps_note_turn hturn)
  | answered _ hclient hturn | shut hclient hturn =>
    exact keepsClient_of_some hclient rfl (Client.keeps_call_finished hturn)

theorem Based.keeps_turn (hs : s.Based) (fs : FileSystem) (now : Nat) (phase : SessionPhase) :
    (turn fs now phase s).Leads s.Keeps := by
  have hbeside := s.leads_turn fs now phase
  cases hturn : turn fs now phase s with
  | parked => exact True.intro
  | moved phase' s' =>
    rw [hturn] at hbeside
    exact hs.keeps_of_beside hbeside (goes_of_turn hturn).keepsClient
  | finished r s' =>
    rw [hturn] at hbeside
    exact hs.keeps_of_beside hbeside (ends_of_turn hturn).keepsClient

theorem keepsClient_drop (phase : SessionPhase) (s : Session) : s.KeepsClient (drop phase s) := by
  have hmap : ∀ f : Client → Client, (∀ c : Client, c.Keeps (f c)) →
      s.KeepsClient { s with client := s.client.map f } :=
    fun f hf c hc ↦ ⟨f c, by simp [hc], hf c⟩
  have hcall : ∀ (call : ServerCall) (c : Client), c.Keeps (call.drop c) := by
    intro call c
    cases call <;> exact ⟨id, id, List.Subset.refl _⟩
  cases phase with
  | awaitingHandshake | awaitingReady | queued => exact keepsClient_of_eq rfl
  | telling note | exiting note | sending _ _ _ note =>
    exact hmap note.drop fun c ↦ ⟨id, id, List.Subset.refl c.wire.written⟩
  | asking _ call | closing call => exact hmap call.drop (hcall call)

/-! ### Why a session is closed -/

/-- The server's output has ended, or the handshake has failed. -/
def Gone (s : Session) : Prop :=
  (∃ c, s.client = some c ∧ c.closed = true) ∨ ∃ e, s.handshake = .ended (.error e)

/-- A session that is closed has lost its server, or its handshake has failed. -/
def Quits (s s' : Session) : Prop :=
  s.state ≠ .closed → s'.state = .closed → ∀ c, s.client = some c → s'.Gone

/-- A session that is closed has lost its server, or its handshake has failed, or a call is about to tell
the server to exit. -/
def Leaves (s s' : Session) (after : Option SessionPhase) : Prop :=
  s.state ≠ .closed → s'.state = .closed → ∀ c, s.client = some c → s'.Gone ∨
    ∃ note, after = some (.exiting note) ∧ note.message = Client.noteMessage "exit" .null

theorem Gone.of_keeps (h : s.Gone) (hkeeps : s.Keeps s') : s'.Gone := by
  rcases h with ⟨c, hc, hclosed⟩ | ⟨e, he⟩
  · obtain ⟨c', hc', hkept⟩ := hkeeps.client c hc
    exact Or.inl ⟨c', hc', hkept.closed hclosed⟩
  · exact Or.inr ⟨e, hkeeps.ended _ he⟩

theorem quits_of_state (h : s'.state = s.state) : s.Quits s' :=
  fun hopen hclosed ↦ absurd (h.symm.trans hclosed) hopen

theorem quits_of_open (h : s'.state ≠ .closed) : s.Quits s' :=
  fun _ hclosed ↦ absurd hclosed h

theorem Quits.trans (h : s.Quits s') (hkeeps : s.Keeps s') (h' : s'.Quits s'')
    (hkeeps' : s'.Keeps s'') : s.Quits s'' := by
  intro hopen hclosed c hc
  by_cases hmiddle : s'.state = .closed
  · exact (h hopen hmiddle c hc).of_keeps hkeeps'
  · obtain ⟨c', hc', -⟩ := hkeeps.client c hc
    exact h' hmiddle hclosed c' hc'

/-- A look at a session closes it only when its server's output has ended. -/
theorem quits_observe (s : Session) : s.Quits s.observe := by
  intro hopen hclosed c hc
  obtain ⟨-, hany⟩ := (state_observe_eq_closed.mp hclosed).resolve_left hopen
  rw [hc] at hany
  exact Or.inl ⟨c, s.client_observe.trans hc, hany⟩

theorem quits_of_runningClient (h : s.observe.runningClient = .ok c)
    (hstate : s'.state = s.observe.state) : s.Quits s' := by
  refine quits_of_open ?_
  rw [hstate, (runningClient_eq_ok h).1]
  nofun

/-- A call that does not close the session. -/
theorem Begins.quits (h : Begins s call b s') (hcall : call.closes = false) : s.Quits s' := by
  cases h with
  | start => exact quits_of_open nofun
  | wait => exact quits_of_state rfl
  | atOnce => exact s.quits_observe
  | tell hrunning | ask _ _ _ hrunning | shut hrunning => exact quits_of_runningClient hrunning rfl
  | enter hrunning =>
    obtain ⟨documents, heq⟩ := s.observe.exists_enterSlot_eq _
    rw [heq]
    exact quits_of_runningClient hrunning rfl
  | exit what s₀ hs₀ hwhat => rcases hwhat with rfl | rfl <;> cases hcall

theorem Goes.quits (h : Goes now s phase phase' s') (hphase : phase.closes = false) : s.Quits s' := by
  cases h with
  | send | await => exact quits_of_state rfl
  | awaitShutdown | exit => cases hphase

theorem Ends.quits {r : SessionResult} (h : Ends now s phase r s') (hphase : phase.closes = false) :
    s.Quits s' := by
  cases h with
  | settled => exact s.quits_observe
  | shut | exited => cases hphase
  | _ => exact quits_of_state rfl

theorem state_drop (phase : SessionPhase) (s : Session) : (drop phase s).state = s.state := by
  cases phase <;> rfl

/-- An exit tells the server, unless it is gone. -/
theorem leaves_beginExit (s : Session) : s.Leaves s.beginExit.2 s.beginExit.1.getLeft? := by
  intro _ _ c hc
  rcases s.beginExit_cases with ⟨heq, hclosed⟩ | ⟨c, c', note, -, -, hmessage, heq⟩ <;> rw [heq]
  · exact Or.inl (Or.inl ⟨c, hc, hclosed c hc⟩)
  · exact Or.inr ⟨note, rfl, hmessage⟩

/-- Closing a session asks a server that runs to shut down first. -/
theorem begin_close_cases (s : Session) : begin .close s = s.observe.beginExit ∨
    ∃ call c', begin .close s = (.inl (.closing call), s.observe.withClient c') ∧
      s.observe.state = .running := by
  simp only [begin]
  split
  · rename_i hrunning
    split
    · exact Or.inl rfl
    · split
      · exact Or.inl rfl
      · exact Or.inr ⟨_, _, rfl, hrunning⟩
  · exact Or.inl rfl

/-- Closing a session begins. -/
theorem leaves_begin (s : Session) :
    s.Leaves (begin .close s).2 (begin .close s).1.getLeft? := by
  intro hopen hclosed c hc
  by_cases hobserved : s.observe.state = .closed
  · -- A look at the session has closed it.
    obtain ⟨-, hany⟩ := (state_observe_eq_closed.mp hobserved).resolve_left hopen
    rw [hc] at hany
    obtain ⟨c', hc', hkeeps⟩ := (s.begins_begin .close).keepsClient c hc
    exact Or.inl (Or.inl ⟨c', hc', hkeeps.closed hany⟩)
  · rcases s.begin_close_cases with heq | ⟨call, c', heq, hrunning⟩
    · rw [heq] at hclosed ⊢
      exact s.observe.leaves_beginExit hobserved hclosed c (s.client_observe.trans hc)
    · rw [heq] at hclosed
      exact absurd hclosed hobserved

/-- Closing a session goes on. -/
theorem leaves_of_goes (h : Goes now s phase phase' s') (hphase : phase.closes = true) :
    s.Leaves s' (some phase') := by
  intro hopen hclosed c hc
  cases h with
  | awaitShutdown => exact absurd hclosed hopen
  | exit hclient hturn hstart => exact Or.inr ⟨_, rfl, (Note.moves_start hstart).2⟩
  | send | await => cases hphase

/-- Closing a session is over without telling the server only when it is gone. -/
theorem leaves_of_finished {r : SessionResult} (h : turn fs now phase s = .finished r s')
    (hphase : s.Closes phase) : s.Leaves s' none := by
  intro hopen hclosed c hc
  rcases hphase with ⟨call, rfl⟩ | ⟨-, hstate⟩
  · obtain ⟨c, c', r₀, hclient, hturn, h⟩ := callTurn_eq_finished h
    rcases (s.withClient c').beginExit_cases with ⟨heq, hgone⟩ | ⟨c₁, c₂, note, -, -, -, heq⟩
    · rw [heq] at h
      obtain ⟨-, rfl⟩ := Turn.finished.inj h
      exact Or.inl (Or.inl ⟨c', rfl, hgone c' rfl⟩)
    · rw [heq] at h
      cases h
  · exact absurd hstate hopen

/-- The message that tells a server to exit was written, or the server takes none. -/
theorem dismissed_of_finished {note : Note} {r : SessionResult}
    (h : turn fs now (.exiting note) s = .finished r s')
    (hmessage : note.message = Client.noteMessage "exit" .null) :
    ∃ c, s'.client = some c ∧ c.Dismissed := by
  obtain ⟨c, c', r₀, -, hturn, h⟩ := noteTurn_eq_finished h
  obtain ⟨-, rfl⟩ := Turn.finished.inj h
  obtain ⟨-, ⟨-, -, hpost⟩ | ⟨-, haccepts, hpost⟩⟩ := Note.post_of_turn hturn
  · have hwritten : c'.wire.written = c.wire.written ++ [note.message] := congrArg Post.written hpost
    refine ⟨c', rfl, Or.inr (Or.inr ?_)⟩
    rw [hwritten, hmessage]
    exact List.mem_append_right _ List.mem_cons_self
  · have haccepts' : c'.wire.accepts = c.wire.accepts := congrArg Post.accepts hpost
    exact ⟨c', rfl, Or.inr (Or.inl (haccepts'.trans haccepts))⟩

/-! ### What goes on by itself -/

theorem quits_of_none (h : s.client = none) : s.Quits s' :=
  fun _ _ _ hc ↦ absurd (h.symm.trans hc) nofun

theorem Based.keeps_launched (hs : s.Based) {spec : LaunchSpec} (hspec : s.handshake = .launching spec)
    (started : Except SessionError Unit) : s.Keeps (s.launched started) := by
  have hnone := hs.launching spec hspec
  have hclient : ∀ s', s.KeepsClient s' := fun s' c hc ↦ absurd (hnone.symm.trans hc) nofun
  have hended : ∀ r, s.handshake ≠ .ended r := fun r hr ↦ absurd (hspec.symm.trans hr) nofun
  rcases s.launched_eq started with ⟨e, heq⟩ | ⟨call, c, heq, -⟩ <;> rw [heq]
  · exact ⟨fun _ ↦ rfl, hclient _, fun r hr ↦ absurd hr (hended r), ⟨nofun, nofun, nofun⟩⟩
  · refine ⟨id, hclient _, fun r hr ↦ absurd hr (hended r), ⟨fun hcreated ↦ ?_, nofun, nofun⟩⟩
    exact absurd (hspec.symm.trans (hs.created hcreated)) nofun

/-- The handshake goes on, or its answer has come. -/
theorem handshakeTurn_cases {u : Unit}
    (h : handshakeTurn now s = .moved u s' ∨ handshakeTurn now s = .finished u s') :
    ∃ call c c', s.handshake = .asking call ∧ s.client = some c ∧ c.Keeps c' ∧
      ((∃ call', s' = { s.withClient c' with handshake := .asking call' }) ∨
        ∃ r, s' = (s.withClient c').handshakeAnswered r) := by
  rcases h with h | h
  · obtain ⟨call, call', c, c', hcall, hclient, hturn, rfl⟩ := exists_call_of_handshakeTurn_moved h
    exact ⟨call, c, c', hcall, hclient, Client.keeps_call_moved hturn, Or.inl ⟨call', rfl⟩⟩
  · obtain ⟨call, c, c', r, hcall, hclient, hturn, rfl⟩ := exists_call_of_handshakeTurn_finished h
    exact ⟨call, c, c', hcall, hclient, Client.keeps_call_finished hturn, Or.inr ⟨r, rfl⟩⟩

theorem Based.keeps_handshakeTurn (hs : s.Based) {u : Unit}
    (h : handshakeTurn now s = .moved u s' ∨ handshakeTurn now s = .finished u s') : s.Keeps s' := by
  obtain ⟨call, c, c', hcall, hclient, hkeeps, hs'⟩ := handshakeTurn_cases h
  have hkept : ∀ s', s'.client = some c' → s.KeepsClient s' :=
    fun s' hs' ↦ keepsClient_of_some hclient hs' hkeeps
  have hended : ∀ r, s.handshake ≠ .ended r := fun r hr ↦ absurd (hcall.symm.trans hr) (by simp)
  have hcreated : s.state ≠ .created := fun hcreated ↦
    absurd (hcall.symm.trans (hs.created hcreated)) (by simp)
  rcases hs' with ⟨call', rfl⟩ | ⟨e | answer, rfl⟩
  · exact ⟨id, hkept _ rfl, fun r hr ↦ absurd hr (hended r),
      ⟨fun h ↦ absurd h hcreated, by simp, by simp⟩⟩
  · exact ⟨fun _ ↦ rfl, hkept _ rfl, fun r hr ↦ absurd hr (hended r),
      ⟨by rintro ⟨⟩, by rintro ⟨⟩, by rintro _ ⟨⟩⟩⟩
  · simp only [handshakeAnswered]
    split
    · rename_i hstate
      have hstate : s.state = .initializing := hstate
      exact ⟨fun h ↦ absurd (hstate.symm.trans h) (by simp), hkept _ rfl,
        fun r hr ↦ absurd hr (hended r), ⟨by simp, by simp, by simp⟩⟩
    · exact ⟨id, hkept _ rfl, fun r hr ↦ absurd hr (hended r),
        ⟨fun h ↦ absurd h hcreated, by simp, by simp⟩⟩

/-- A handshake closes a session only when it fails. -/
theorem quits_handshakeTurn {u : Unit}
    (h : handshakeTurn now s = .moved u s' ∨ handshakeTurn now s = .finished u s') : s.Quits s' := by
  obtain ⟨call, c, c', -, -, -, ⟨call', rfl⟩ | ⟨e | answer, rfl⟩⟩ := handshakeTurn_cases h
  · exact quits_of_state rfl
  · exact fun _ _ _ _ ↦ Or.inr ⟨e, rfl⟩
  · simp only [handshakeAnswered]
    split
    · exact quits_of_open (by simp)
    · exact quits_of_state rfl

/-- Somebody has used the client of a session. -/
theorem Based.keeps_withClient (hs : s.Based) (hclient : s.client = some c) (h : c.Keeps c') :
    s.Keeps (s.withClient c') :=
  ⟨id, keepsClient_of_some hclient rfl h, fun _ hr ↦ hr, hs.created,
    fun hfresh ↦ absurd ((hs.fresh hfresh).symm.trans hclient) nofun,
    fun spec hspec ↦ absurd ((hs.launching spec hspec).symm.trans hclient) nofun⟩

end Session

end CodeNav
