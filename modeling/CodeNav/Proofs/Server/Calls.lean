import CodeNav.Proofs.Server.Client
import CodeNav.Proofs.Turns
import CodeNav.Server.Session

/-!
# Calls beside the handshake

Whatever is asked of a session, but for the call that starts its server, leaves the handshake alone:
it may close the session, and it may use the client, but it neither begins nor ends a handshake, and
brings no answer that the client did not have.

## Main definitions

* `Session.Beside`: a session that was used beside its handshake

## Main statements

* `Session.beside_begin`, `Session.leads_turn`, `Session.beside_drop`: calls go on beside the
  handshake
* `Session.launched_eq`, `Session.handshakeTurn_eq_moved`, `Session.handshakeTurn_eq_finished`: how
  the handshake itself goes on
-/

namespace CodeNav

namespace Note

theorem leads_turn (n : Note) (c : Client) : (n.turn c).Leads c.Alike := by
  cases h : n.turn c with
  | parked => trivial
  | moved n' c' => exact absurd h turn_ne_moved
  | finished r c' => exact alike_turn h

end Note

namespace ServerCall

theorem answers_forget_subset (c : Client) (id : Nat) : (forget c id).answers ⊆ c.answers :=
  List.filter_sublist.subset

/-- No answer comes with the turn of a request. -/
theorem leads_turn (call : ServerCall) (now : Nat) (c : Client) :
    (call.turn now c).Leads fun c' ↦ c'.answers ⊆ c.answers := by
  cases h : call.turn now c with
  | parked => trivial
  | moved call' c' =>
    obtain ⟨hc, -⟩ := turn_eq_moved h
    exact hc.answers ▸ List.Subset.refl _
  | finished r c' =>
    obtain ⟨-, c₀, hc, rfl⟩ := turn_eq_finished h
    exact hc.answers ▸ answers_forget_subset c₀ call.id

theorem answers_drop_subset (call : ServerCall) (c : Client) :
    (call.drop c).answers ⊆ c.answers := by
  obtain ⟨c₀, hc, hdrop⟩ := call.drop_eq c
  rw [hdrop, ← hc.answers]
  exact answers_forget_subset c₀ call.id

end ServerCall

namespace Session

variable {s s' s'' : Session} {c c' : Client}

/-- A session that was used beside its handshake: it is still as far as it was, or closed, and its
client has no new answers. -/
structure Beside (s s' : Session) : Prop where
  checkout : s'.checkout = s.checkout
  options : s'.options = s.options
  handshake : s'.handshake = s.handshake
  state : s'.state = s.state ∨ s'.state = .closed
  client : ∀ c', s'.client = some c' → ∃ c, s.client = some c ∧ c'.answers ⊆ c.answers

theorem beside_refl (s : Session) : Beside s s :=
  ⟨rfl, rfl, rfl, Or.inl rfl, fun c hc ↦ ⟨c, hc, List.Subset.refl _⟩⟩

theorem Beside.trans (h : Beside s s') (h' : Beside s' s'') : Beside s s'' where
  checkout := h'.checkout.trans h.checkout
  options := h'.options.trans h.options
  handshake := h'.handshake.trans h.handshake
  state := by
    rcases h'.state with heq | hclosed
    · rw [heq]
      exact h.state
    · exact Or.inr hclosed
  client c hc := by
    obtain ⟨c', hc', hsub'⟩ := h'.client c hc
    obtain ⟨c₀, hc₀, hsub⟩ := h.client c' hc'
    exact ⟨c₀, hc₀, List.Subset.trans hsub' hsub⟩

theorem Beside.client_eq_none (h : Beside s s') (hs : s.client = none) : s'.client = none := by
  cases hc : s'.client with
  | none => rfl
  | some c =>
    obtain ⟨c₀, hc₀, -⟩ := h.client c hc
    exact absurd (hs.symm.trans hc₀) (by simp)

/-- A session that is not closed after its use is as far as it was. -/
theorem Beside.state_eq (h : Beside s s') (hne : s'.state ≠ .closed) : s.state = s'.state :=
  (h.state.resolve_right hne).symm

/-- The client was used, but no answer has come. -/
theorem beside_withClient (hs : s.client = some c) (hsub : c'.answers ⊆ c.answers) :
    Beside s (s.withClient c') := by
  refine ⟨rfl, rfl, rfl, Or.inl rfl, fun c₁ hc₁ ↦ ⟨c, hs, ?_⟩⟩
  obtain rfl := Option.some.inj hc₁
  exact hsub

theorem beside_alike (hs : s.client = some c) (hc : c.Alike c') : Beside s (s.withClient c') :=
  beside_withClient hs (by rw [hc.answers]; exact List.Subset.refl _)

/-- Only what is known of documents has changed. -/
theorem beside_documents (s : Session) (documents : List DocumentSlot) :
    Beside s { s with documents := documents } :=
  ⟨rfl, rfl, rfl, Or.inl rfl, fun c hc ↦ ⟨c, hc, List.Subset.refl _⟩⟩

theorem beside_changeSlot (s : Session) (uri : String) (f : DocumentSlot → DocumentSlot) :
    Beside s (s.changeSlot uri f) :=
  s.beside_documents _

theorem beside_enterSlot (s : Session) (uri : String) : Beside s (s.enterSlot uri).2 := by
  have hslot : Beside s (s.withSlot uri) := by
    simp only [withSlot]
    split
    · exact beside_refl s
    · exact s.beside_documents _
  simp only [enterSlot]
  split
  · exact hslot
  · exact hslot.trans (beside_changeSlot _ _ _)

theorem beside_closed (s : Session) : Beside s { s with state := .closed } :=
  ⟨rfl, rfl, rfl, Or.inr rfl, fun c hc ↦ ⟨c, hc, List.Subset.refl _⟩⟩

theorem beside_observe (s : Session) : Beside s s.observe := by
  simp only [observe]
  split
  · exact s.beside_closed
  · exact beside_refl s

theorem beside_initializedSent (s : Session) : Beside s { s with initializedSent := true } :=
  ⟨rfl, rfl, rfl, Or.inl rfl, fun c hc ↦ ⟨c, hc, List.Subset.refl _⟩⟩

/-- A session that runs has a client. -/
theorem runningClient_eq_ok (h : s.runningClient = .ok c) :
    s.state = .running ∧ s.client = some c := by
  simp only [runningClient] at h
  split at h
  · rename_i hstate
    split at h
    · rename_i c₀ hclient
      obtain rfl := Except.ok.inj h
      exact ⟨hstate, hclient⟩
    · simp at h
  · simp at h
  · simp at h

/-! ### Calls begin -/

theorem beside_ask (hs : s.client = some c) (question : Question) (method : String) (params : Json)
    (limit : Option Nat) : Beside s (ask question method params limit s c).2 := by
  simp only [ask]
  split
  · exact beside_refl s
  · rename_i call c' hstart
    obtain ⟨-, -, -, hanswers, -⟩ := ServerCall.start_eq_ok hstart
    exact beside_withClient hs (by rw [hanswers]; exact List.Subset.refl _)

theorem beside_askAbout (s : Session) (question : Question) (method path : String)
    (params : String → Json) : Beside s (askAbout question method path params s).2 := by
  simp only [askAbout]
  split
  · exact beside_refl s
  · rename_i hrunning
    split
    · exact beside_refl s
    · exact beside_ask (runningClient_eq_ok hrunning).2 _ _ _ _

theorem beside_beginExit (s : Session) : Beside s s.beginExit.2 := by
  simp only [beginExit]
  split
  · exact s.beside_closed
  · rename_i c hclient
    split
    · exact s.beside_closed
    · rename_i note c' hstart
      exact s.beside_closed.trans (beside_alike hclient (Note.alike_start hstart))

/-- Every call begins beside the handshake, unless it is the one that starts the server. -/
theorem beside_begin (s : Session) {call : SessionCall}
    (h : ∀ context, call = .start context → s.state ≠ .created) : Beside s (begin call s).2 := by
  have hobserve := s.beside_observe
  cases call with
  | start context =>
    simp only [begin]
    split
    · rename_i hcreated
      exact absurd hcreated (h context rfl)
    · split <;> exact hobserve
  | ready =>
    simp only [begin]
    split
    · exact beside_refl s
    · exact hobserve
  | initialized =>
    simp only [begin]
    split
    · exact hobserve
    · rename_i hrunning
      split
      · exact hobserve
      · have hsent := hobserve.trans s.observe.beside_initializedSent
        split
        · exact hsent
        · rename_i hstart
          exact hsent.trans (beside_alike (runningClient_eq_ok hrunning).2 (Note.alike_start hstart))
  | didOpen path text =>
    simp only [begin]
    split
    · exact hobserve
    · split
      · exact hobserve.trans (s.observe.beside_enterSlot _)
      · exact hobserve
      · exact hobserve
  | symbols path => exact hobserve.trans (s.observe.beside_askAbout _ _ _ _)
  | place question path position => exact hobserve.trans (s.observe.beside_askAbout _ _ _ _)
  | shutdown =>
    simp only [begin]
    split
    · exact hobserve
    · rename_i hrunning
      exact hobserve.trans (beside_ask (runningClient_eq_ok hrunning).2 _ _ _ _)
  | exit => exact s.beside_beginExit
  | close =>
    simp only [begin]
    split
    · split
      · exact hobserve.trans s.observe.beside_beginExit
      · rename_i hclient
        split
        · exact hobserve.trans s.observe.beside_beginExit
        · rename_i hstart
          obtain ⟨-, -, -, hanswers, -⟩ := ServerCall.start_eq_ok hstart
          refine hobserve.trans (beside_withClient hclient ?_)
          rw [hanswers]
          exact List.Subset.refl _
    · exact hobserve.trans s.observe.beside_beginExit

/-! ### Calls go on -/

theorem leads_entered {P : Session → Prop} {b : (SessionPhase ⊕ SessionResult) × Session}
    (h : P b.2) : (entered b).Leads P := by
  obtain ⟨_ | _, s⟩ := b <;> exact h

theorem leads_noteTurn (s : Session) (note : Note) (phase : Note → SessionPhase)
    {finish : Except SessionError Unit → Session → Turn Session SessionPhase SessionResult}
    (hfinish : ∀ r s', Beside s s' → (finish r s').Leads (Beside s)) :
    (noteTurn note phase finish s).Leads (Beside s) := by
  simp only [noteTurn]
  split
  · trivial
  · rename_i c hclient
    refine Turn.leads_map phase finish (Turn.leads_lift ?_) hfinish
    exact (note.leads_turn c).imp fun c' hc ↦ beside_alike hclient hc

theorem leads_callTurn (s : Session) (now : Nat) (call : ServerCall)
    (phase : ServerCall → SessionPhase)
    {finish : Except SessionError Json → Session → Turn Session SessionPhase SessionResult}
    (hfinish : ∀ r s', Beside s s' → (finish r s').Leads (Beside s)) :
    (callTurn now call phase finish s).Leads (Beside s) := by
  simp only [callTurn]
  split
  · trivial
  · rename_i c hclient
    refine Turn.leads_map phase finish (Turn.leads_lift ?_) hfinish
    exact (call.leads_turn now c).imp fun c' hsub ↦ beside_withClient hclient hsub

theorem leads_sendText (s : Session) (uri : String) (ticket : Nat) (language text digest : String) :
    (sendText uri ticket language text digest s).Leads (Beside s) := by
  have hleave : Beside s (s.leaveSlot uri ticket) := s.beside_changeSlot _ _
  simp only [sendText]
  split
  · exact hleave
  · rename_i c hclient
    split
    · split
      · exact hleave
      · split
        · exact hleave
        · rename_i hstart
          exact beside_alike hclient (Note.alike_start hstart)
    · split
      · exact hleave
      · rename_i hstart
        exact beside_alike hclient (Note.alike_start hstart)

/-- Every call goes on beside the handshake. -/
theorem leads_turn (s : Session) (fs : FileSystem) (now : Nat) (phase : SessionPhase) :
    (turn fs now phase s).Leads (Beside s) := by
  cases phase with
  | awaitingHandshake =>
    simp only [turn]
    split
    · exact beside_refl s
    · trivial
  | awaitingReady =>
    simp only [turn]
    split
    · trivial
    · exact s.beside_observe
  | telling note => exact s.leads_noteTurn _ _ fun r s' h ↦ h
  | queued uri ticket language text digest =>
    simp only [turn]
    split
    · split
      · exact s.leads_sendText _ _ _ _ _
      · trivial
    · trivial
  | sending uri ticket opened note =>
    refine s.leads_noteTurn _ _ fun r s' h ↦ ?_
    cases r with
    | ok _ => exact (h.trans (s'.beside_changeSlot _ _)).trans (beside_changeSlot _ _ _)
    | error _ => exact h.trans (s'.beside_changeSlot _ _)
  | asking question call =>
    refine s.leads_callTurn _ _ _ fun r s' h ↦ ?_
    cases r <;> exact h
  | closing call =>
    exact s.leads_callTurn _ _ _ fun r s' h ↦ leads_entered (h.trans s'.beside_beginExit)
  | exiting note => exact s.leads_noteTurn _ _ fun r s' h ↦ h

theorem beside_onClient (s : Session) {f : Client → Client}
    (hf : ∀ c, (f c).answers ⊆ c.answers) : Beside s { s with client := s.client.map f } := by
  refine ⟨rfl, rfl, rfl, Or.inl rfl, fun c' hc' ↦ ?_⟩
  obtain ⟨c, hc, rfl⟩ := Option.map_eq_some_iff.mp hc'
  exact ⟨c, hc, hf c⟩

/-- A call is given up beside the handshake. -/
theorem beside_drop (s : Session) (phase : SessionPhase) : Beside s (drop phase s) := by
  have hnote : ∀ note : Note, ∀ c, (note.drop c).answers ⊆ c.answers :=
    fun note c ↦ List.Subset.refl _
  cases phase with
  | awaitingHandshake => exact beside_refl s
  | awaitingReady => exact beside_refl s
  | telling note => exact s.beside_onClient (hnote note)
  | queued uri ticket _ _ _ => exact s.beside_changeSlot _ _
  | sending uri ticket _ note =>
    exact (s.beside_onClient (hnote note)).trans (beside_changeSlot _ _ _)
  | asking _ call => exact s.beside_onClient call.answers_drop_subset
  | closing call => exact s.beside_onClient call.answers_drop_subset
  | exiting note => exact s.beside_onClient (hnote note)

/-! ### The handshake goes on -/

/-- The call that starts the server moves a session on to its handshake, and waits for it. -/
theorem begin_start (context : Context) (h : s.state = .created) :
    begin (.start context) s =
      (.inl .awaitingHandshake,
        { s with
          state := .initializing
          handshake := .launching
            (LaunchSpec.of context s.options.server s.options.usualCommand s.checkout) }) := by
  simp only [begin, h]

/-- An attempt to start the server of a session that is closed fails. -/
theorem begin_start_of_closed (context : Context) (h : s.observe.state = .closed) :
    begin (.start context) s = (.inr (.error .closed), s.observe) := by
  cases hs : s.state with
  | created => simp [observe, hs] at h
  | _ => simp only [begin, hs, h]

/-- When the server was started, it is asked to initialize by a new client; otherwise the handshake
has failed. -/
theorem launched_eq (s : Session) (started : Except SessionError Unit) :
    (∃ e, s.launched started = s.handshakeFailed e) ∨
      ∃ call c, s.launched started = { s.withClient c with handshake := .asking call } ∧
        call.method = "initialize" ∧ c.answers = [] := by
  cases started with
  | error e => exact Or.inl ⟨e, rfl⟩
  | ok _ =>
    simp only [launched]
    cases hclient : Client.start s.checkout s.options.server.requestTimeout with
    | error e => exact Or.inl ⟨e, rfl⟩
    | ok c =>
      obtain ⟨-, -, hnone, hopen⟩ := Client.of_start hclient
      cases hstart : ServerCall.start "initialize" (initializeParams s.options.processId c)
          s.options.server.initializeTimeout c with
      | error e =>
        obtain ⟨hclosed, -⟩ := ServerCall.start_eq_error hstart
        exact absurd (hopen.symm.trans hclosed) (by simp)
      | ok started =>
        obtain ⟨call, c'⟩ := started
        obtain ⟨-, -, -, hanswers, -, ticket, hcall⟩ := ServerCall.start_eq_ok hstart
        refine Or.inr ⟨call, c', ?_, by rw [hcall, ServerCall.method], hanswers.trans hnone⟩
        simp only [hstart]

/-- A handshake goes on by its request. -/
theorem exists_call_of_handshakeTurn_moved {now : Nat} {u : Unit}
    (h : handshakeTurn now s = .moved u s') :
    ∃ call call' c c', s.handshake = .asking call ∧ s.client = some c ∧
      call.turn now c = .moved call' c' ∧ s' = { s.withClient c' with handshake := .asking call' } := by
  simp only [handshakeTurn] at h
  split at h
  · rename_i call c hhandshake hclient
    split at h
    · simp at h
    · rename_i call' c' hturn
      obtain ⟨-, rfl⟩ := Turn.moved.inj h
      exact ⟨call, call', c, c', hhandshake, hclient, hturn, rfl⟩
    · simp at h
  · simp at h

/-- A handshake ends with its request. -/
theorem exists_call_of_handshakeTurn_finished {now : Nat} {u : Unit}
    (h : handshakeTurn now s = .finished u s') :
    ∃ call c c' r, s.handshake = .asking call ∧ s.client = some c ∧
      call.turn now c = .finished r c' ∧ s' = (s.withClient c').handshakeAnswered r := by
  simp only [handshakeTurn] at h
  split at h
  · rename_i call c hhandshake hclient
    split at h
    · simp at h
    · simp at h
    · rename_i r c' hturn
      obtain ⟨-, rfl⟩ := Turn.finished.inj h
      exact ⟨call, c, c', r, hhandshake, hclient, hturn, rfl⟩
  · simp at h

/-- The request of the handshake was written. -/
theorem handshakeTurn_eq_moved {now : Nat} {u : Unit} (h : handshakeTurn now s = .moved u s') :
    ∃ call call' c c', s.handshake = .asking call ∧ s.client = some c ∧ c.Alike c' ∧
      call'.id = call.id ∧ s' = { s.withClient c' with handshake := .asking call' } := by
  obtain ⟨call, call', c, c', hhandshake, hclient, hturn, rfl⟩ := exists_call_of_handshakeTurn_moved h
  obtain ⟨hc, ticket, message, -, hcall'⟩ := ServerCall.turn_eq_moved hturn
  exact ⟨call, call', c, c', hhandshake, hclient, hc, hcall' ▸ rfl, rfl⟩

/-- The request of the handshake has ended. -/
theorem handshakeTurn_eq_finished {now : Nat} {u : Unit}
    (h : handshakeTurn now s = .finished u s') :
    ∃ call c c' r, s.handshake = .asking call ∧ s.client = some c ∧
      ServerCall.Ends now c call r ∧ c'.answers ⊆ c.answers ∧
      s' = (s.withClient c').handshakeAnswered r := by
  obtain ⟨call, c, c', r, hhandshake, hclient, hturn, rfl⟩ := exists_call_of_handshakeTurn_finished h
  exact ⟨call, c, c', r, hhandshake, hclient, (ServerCall.turn_eq_finished hturn).1,
    (call.leads_turn now c).finished hturn, rfl⟩

end Session

end CodeNav
