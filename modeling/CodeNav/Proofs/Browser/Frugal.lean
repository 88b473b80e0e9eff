import CodeNav.Proofs.Browser.Invalidations
import CodeNav.Proofs.Browser.Replies
import CodeNav.Proofs.Server.Starting

/-!
# What requests cost

Only a request to open a document makes sessions and starts servers: whatever else arrives, and in
whatever order handlers take turns, nothing comes into the table of sessions and no server is started on
behalf of it. A message that is no request costs nothing at all but its reply. A request about a
repository whose session does not run is refused on the spot, and no server hears of it.

## Main definitions

* `Request.visits?`: the repository whose session has to run for a request
* `Sessions.Runs`: the session of a repository runs
* `HandlerPhase.Settled`: a handler has no servers to start
* `ServiceWorld.Opening`: a turn of a handler that opens a document of a repository
* `ServiceWorld.Frugal`: what a service spares, whoever asks

## Main statements

* `Handler.spares_phaseTurn`: a turn that does not open a document starts nothing
* `Handler.opens_phaseTurn`: what a turn does that opens a document
* `Handler.refused_of_visits`: a request about a session that does not run is refused
* `ServiceWorld.opening_of_launching`: where a server comes from that is going to be started
* `ServiceWorld.exists_runs_of_run`: where a request comes from that was not refused
* `ServiceWorld.frugal_of_run`: every run is frugal
-/

namespace CodeNav

/-! ### Requests about sessions that run -/

/-- The repository whose session has to run for a request. -/
def Request.visits? : Request → Option RepositoryArgs
  | documentSymbol d => some d.repository
  | hover t => some t.document.repository
  | definition t => some t.document.repository
  | references t => some t.document.repository
  | documentHighlight t => some t.document.repository
  | shutdown r => some r
  | _ => none

/-- A repository has a session that runs, as those see it who look at it. -/
def Sessions.Runs (r : Sessions) (key : RepositoryKey) : Prop :=
  ∃ n s, r.find? key = some n ∧ r.session? n = some s ∧ s.observe.state = .running

/-- A call that only a session that runs takes. -/
def SessionCall.asks : SessionCall → Bool
  | symbols _ => true
  | place _ _ _ => true
  | shutdown => true
  | _ => false

namespace Session

variable {s : Session}

theorem runningClient_of_not_running (h : s.state ≠ .running) : ∃ e, s.runningClient = .error e := by
  simp only [runningClient]
  cases hs : s.state with
  | running => exact absurd hs h
  | _ => exact ⟨_, rfl⟩

/-- A session that does not run refuses, and is only looked at. -/
theorem begin_of_not_running {call : SessionCall} (hcall : call.asks = true)
    (h : s.observe.state ≠ .running) : ∃ e, begin call s = (.inr (.error e), s.observe) := by
  obtain ⟨e, he⟩ := runningClient_of_not_running h
  refine ⟨e, ?_⟩
  cases call with
  | symbols | place | shutdown => simp only [begin, askAbout, he]
  | _ => cases hcall

end Session

/-! ### Handlers -/

/-- The calls that a handler is still going to make start no server. -/
def HandlerPhase.Settled : HandlerPhase → Prop
  | calling _ _ _ rest => ∀ call ∈ rest, call.starts = false
  | _ => True

theorem HandlerPhase.Idle.settled {p : HandlerPhase} (h : p.Idle) : p.Settled := by
  cases p <;> first | exact True.intro | cases h

namespace Handler

variable {v : Service} {now strand : Nat} {news : HandlerNews} {name : String} {request : Request}
  {m : PageMessage} {r : Sessions} {s s' : ServiceState} {p : HandlerPhase} {key : RepositoryKey}

/-- A handler has neither handed out sessions nor started any, and is not going to start any. -/
structure Spared (r : Sessions) (after : Option HandlerPhase) (s' : ServiceState) : Prop where
  sessions : r.Spares s'.sessions
  settled : ∀ p, after = some p → p.Settled

/-- A handler has handed out and started the session of a repository, and is not going to start any. -/
structure Opened (key : RepositoryKey) (r : Sessions) (after : Option HandlerPhase)
    (s' : ServiceState) : Prop where
  sessions : r.Opens key s'.sessions
  settled : ∀ p, after = some p → p.Settled

theorem spared_finished {reply : Reply} (h : r.Spares s.sessions) :
    Comes (Spared r) (.finished reply s) :=
  .finished ⟨h, fun _ heq ↦ (by cases heq)⟩

theorem spared_moved (h : r.Spares s.sessions) (hp : p.Settled) : Comes (Spared r) (.moved p s) :=
  .moved ⟨h, fun _ heq ↦ Option.some.inj heq ▸ hp⟩

theorem spared_of_idles {turn : HandlerTurn} (h : Comes (HandlerPhase.Idles s.sessions) turn)
    (hspares : r.Spares s.sessions) : Comes (Spared r) turn :=
  h.imp fun _ _ hidles ↦ ⟨hidles.sessions ▸ hspares, fun p hp ↦ (hidles.idle p hp).settled⟩

/-! #### Turns that start nothing -/

theorem spared_makeCalls (n : Nat) {calls : List SessionCall} (last : SessionResult) {s : ServiceState}
    (hcalls : ∀ call ∈ calls, call.starts = false) (hspares : r.Spares s.sessions) :
    Comes (Spared r) (makeCalls name request n calls last s) := by
  induction calls generalizing last s with
  | nil => exact spared_finished hspares
  | cons call calls ih =>
    obtain ⟨hhead, htail⟩ := List.forall_mem_cons.mp hcalls
    have hbegun := hspares.trans (.beginOn s.sessions n hhead)
    simp only [makeCalls]
    split <;> rename_i hbegin <;> rw [hbegin] at hbegun
    · exact spared_moved hbegun htail
    · exact spared_finished hbegun
    · exact ih _ htail hbegun

theorem spared_callExisting (repository : RepositoryArgs) {call : SessionCall} (s : ServiceState)
    (hcall : call.starts = false) :
    Comes (Spared s.sessions) (callExisting name request repository call s) := by
  simp only [callExisting]
  split
  · exact spared_finished (.refl _)
  · exact spared_makeCalls _ _ (by simpa using hcall) (.refl _)

theorem spared_evict (one : Bool) (call : EvictionCall) (s : ServiceState) :
    Comes (Spared s.sessions) (evict name one call s) := by
  have hspares := Sessions.Spares.evict s.sessions call
  simp only [evict]
  split <;> rename_i heq <;> rw [heq] at hspares
  · exact spared_moved hspares True.intro
  · exact spared_finished hspares

theorem spared_synchronize (url : String) (force : Bool) (settings : Settings) (s : ServiceState) :
    Comes (Spared s.sessions) (synchronize v name request url force settings s) := by
  delta synchronize
  split
  · exact spared_moved (.refl _) True.intro
  · exact spared_of_idles (idles_synchronized _ rfl) (.refl _)

theorem spared_start (request : Request) (s : ServiceState) :
    Comes (Spared s.sessions) (start v now name request s) := by
  cases request <;> (delta start; dsimp only)
  case openPage | didOpen | settings | updateSettings | checkoutRepository =>
    exact spared_moved (.refl _) True.intro
  case documentSymbol | shutdown => exact spared_callExisting _ s rfl
  case hover | definition | references | documentHighlight => exact spared_callExisting _ s rfl
  case exit | reset => exact spared_evict _ _ s
  case repository url => exact spared_of_idles (idles_inspect url rfl) (.refl _)
  case deleteRepository url =>
    split
    · exact spared_moved (.refl _) True.intro
    · exact spared_finished (.refl _)
  case buildProgress a => exact spared_of_idles (idles_watch a s) (.refl _)

/-- The settings were read for anything but a document that is opened. -/
theorem spared_settingsRead (settings : Except SettingsError Settings) (s : ServiceState)
    (hrequest : ∀ d text, request ≠ .didOpen d text) :
    Comes (Spared s.sessions) (settingsRead v name request settings s) := by
  simp only [settingsRead]
  split
  · split
    · split
      · exact spared_finished (.refl _)
      · exact spared_synchronize _ _ _ s
    · exact spared_finished (.refl _)
  · exact absurd rfl (hrequest _ _)
  · exact spared_synchronize _ _ _ s
  · exact spared_finished (.refl _)
  · split <;> exact spared_moved (.refl _) True.intro
  · exact spared_finished (.refl _)

/-- A handler goes on with a call on a checkout. -/
theorem spared_ofCheckout (request : Request) (k : CheckoutCall) (e : Option Eviction) (s : ServiceState) :
    Comes (Spared s.sessions)
      (phaseTurn v now strand news m (HandlerPhase.ofCheckout request (k, e)) s) := by
  have hword := Sessions.Spares.turnFor e s.fs now k.key s.sessions
  rw [phaseTurn_ofCheckout]
  cases hturn : k.tellingTurn v.sync now news e s with
  | parked => exact .parked
  | finished x s' =>
    refine spared_of_idles (idles_reported x rfl) ?_
    obtain ⟨-, ⟨-, hs⟩ | ⟨-, any, r, rfl, heq⟩⟩ := CheckoutCall.tellingTurn_eq_finished hturn
    · exact .of_eq hs
    · exact hword.finished heq
  | moved after s' =>
    obtain ⟨k', e'⟩ := after
    refine spared_moved ?_ ?_
    · rcases CheckoutCall.tellingTurn_eq_moved hturn with
        ⟨-, -, -, hs⟩ | ⟨-, -, e₁, r, -, rfl, heq⟩
      · exact .of_eq hs
      · exact hword.moved heq
    · cases k' <;> exact True.intro

/-- A turn that does not open a document starts nothing. -/
theorem spared_phaseTurn (hp : p.Settled)
    (hopen : ∀ d text settings, p ≠ .loaded (.didOpen d text) settings) :
    Comes (Spared s.sessions) (phaseTurn v now strand news m p s) := by
  cases p with
  | arrived =>
    simp only [phaseTurn]
    split
    · exact spared_finished (.refl _)
    · exact spared_start _ s
  | loading request =>
    simp only [phaseTurn]
    exact spared_moved (.refl _) True.intro
  | loaded request settings =>
    simp only [phaseTurn]
    exact spared_settingsRead settings s fun d text heq ↦ hopen d text settings (heq ▸ rfl)
  | calling request n phase rest =>
    have hspares := Sessions.Spares.turnOn s.sessions s.fs now n phase
    simp only [phaseTurn]
    cases hturn : s.sessions.turnOn s.fs now n phase with
    | parked => exact .parked
    | moved phase' r => exact spared_moved (hspares.moved hturn) hp
    | finished result r =>
      cases result with
      | error e => exact spared_finished (hspares.finished hturn)
      | ok a => exact spared_makeCalls n _ hp (hspares.finished hturn)
  | synchronizing request call e => exact spared_ofCheckout request (.sync call) e s
  | removing call e => exact spared_ofCheckout .reset (.removal call) e s
  | evicting one e =>
    have hspares := Sessions.Spares.evictionTurn e s.fs now strand s.sessions
    simp only [phaseTurn]
    cases hturn : e.turn s.fs now strand s.sessions with
    | parked => exact .parked
    | moved e' r => exact spared_moved (hspares.moved hturn) True.intro
    | finished any r => exact spared_finished (hspares.finished hturn)
  | inspecting | watching | locating | saving =>
    exact spared_of_idles (idles_phaseTurn True.intro) (.refl _)

/-- Giving up a handler starts nothing. -/
theorem spares_drop (h : Handler) (s : ServiceState) : s.sessions.Spares (h.drop s).sessions :=
  h.drop_induction (.refl _) fun r n phase hspares ↦ hspares.trans (.dropOn r n phase)

/-! #### The turn that opens a document -/

/-- A document is opened: the session of its repository is handed out, and told to start first of all. -/
theorem opened_openDocument (d : DocumentArgs) (text : String) (settings : Settings)
    (s : ServiceState) : Comes (Opened d.repository.key s.sessions)
      (openDocument name request d text settings s) := by
  have hopens := (Sessions.opens_get s.sessions d.repository.key).beginOn (.start settings.context)
  have hrest : ∀ call ∈ [SessionCall.ready, .initialized, .didOpen d.filepath text,
      .symbols d.filepath], call.starts = false := by
    simp [SessionCall.starts]
  simp only [openDocument, makeCalls]
  split <;> rename_i hbegin <;>
    (simp only [ServiceState.withSessions] at hbegin; rw [hbegin] at hopens)
  · exact .moved ⟨hopens, fun _ heq ↦ Option.some.inj heq ▸ hrest⟩
  · exact .finished ⟨hopens, fun _ heq ↦ (by cases heq)⟩
  · rename_i a r
    have hcomes : Comes (Spared r) (makeCalls name request (s.sessions.get d.repository.key).1
        [.ready, .initialized, .didOpen d.filepath text, .symbols d.filepath] (.ok a)
        (s.withSessions r)) :=
      spared_makeCalls _ _ hrest (.refl r)
    exact hcomes.imp fun after s' h ↦ ⟨hopens.spares h.sessions, h.settled⟩

theorem opened_phaseTurn (d : DocumentArgs) (text : String)
    (settings : Except SettingsError Settings) : Comes (Opened d.repository.key s.sessions)
      (phaseTurn v now strand news m (.loaded (.didOpen d text) settings) s) := by
  simp only [phaseTurn, settingsRead]
  exact opened_openDocument d text _ s

/-! #### Messages that are refused -/

/-- A message that is no request is answered on the spot, and nothing else happens. -/
theorem turn_of_error {h : Handler} {e : Request.Error} (hphase : h.phase = .arrived)
    (hparse : Request.parse h.message.name h.message.userInfo = .error e) :
    h.turn v now strand news s = .finished
      ((Reply.error h.message.name e.message).addressed h.message.tab h.message.repeatedInfo) s := by
  simp only [turn, hphase, phaseTurn, hparse, Turn.map]

theorem outcome_sessionReply_error (name : String) (request : Request) (e : SessionError) :
    (sessionReply name request (.error e)).outcome = .error := by
  simp only [sessionReply]
  split <;> rfl

/-- A request was refused: the reply is an error, and checkouts, the table and the clients of all sessions
are as they were. -/
structure Refused (s : ServiceState) (reply : Reply) (s' : ServiceState) : Prop where
  outcome : reply.outcome = .error
  checkouts : s'.checkouts = s.checkouts
  table : s'.sessions.table = s.sessions.table
  clients : ∀ n, (s'.sessions.session? n).map Session.client =
    (s.sessions.session? n).map Session.client

theorem refused_sessionReply (e : SessionError) (s : ServiceState) :
    Refused s (sessionReply name request (.error e)) s :=
  ⟨outcome_sessionReply_error name request e, rfl, rfl, fun _ ↦ rfl⟩

/-- A call on a session that has to be there is refused if it does not run. -/
theorem callExisting_of_not_runs {repository : RepositoryArgs} {call : SessionCall}
    (hcall : call.asks = true) (hnot : ¬ s.sessions.Runs repository.key) :
    ∃ reply s', callExisting name request repository call s = .finished reply s' ∧
      Refused s reply s' := by
  simp only [callExisting]
  cases hfind : s.sessions.find? repository.key with
  | none => exact ⟨_, s, rfl, refused_sessionReply _ s⟩
  | some n =>
    cases hs : s.sessions.session? n with
    | none =>
      refine ⟨sessionReply name request (.error .closed), s, ?_, refused_sessionReply .closed s⟩
      simp only [makeCalls, Sessions.beginOn, hs]
      rfl
    | some x =>
      have hstate : x.observe.state ≠ .running := fun hstate ↦ hnot ⟨n, x, hfind, hs, hstate⟩
      obtain ⟨e, he⟩ := Session.begin_of_not_running hcall hstate
      refine ⟨_, s.withSessions (s.sessions.put n x.observe), ?_,
        ⟨outcome_sessionReply_error name request e, rfl, rfl, fun m ↦ ?_⟩⟩
      · simp only [makeCalls, Sessions.beginOn, hs, he]
      · change ((s.sessions.put n x.observe).session? m).map Session.client = _
        rw [Sessions.session?_put hs]
        split
        · rename_i heq
          rw [heq, hs, Option.map_some, Option.map_some, Session.client_observe]
        · rfl

/-- A request about a session that does not run is refused on the spot, and no server hears of it. -/
theorem refused_of_visits {h : Handler} {repository : RepositoryArgs} (hphase : h.phase = .arrived)
    (hparse : Request.parse h.message.name h.message.userInfo = .ok request)
    (hvisits : request.visits? = some repository) (hnot : ¬ s.sessions.Runs repository.key) :
    ∃ reply s', h.turn v now strand news s = .finished reply s' ∧ Refused s reply s' := by
  have hstart : ∃ reply s', start v now h.message.name request s = .finished reply s' ∧
      Refused s reply s' := by
    cases request with
    | documentSymbol | shutdown | hover | definition | references | documentHighlight =>
      obtain rfl := Option.some.inj hvisits
      exact callExisting_of_not_runs rfl hnot
    | _ => cases hvisits
  obtain ⟨reply, s', heq, houtcome, hcheckouts, htable, hclients⟩ := hstart
  refine ⟨reply.addressed h.message.tab h.message.repeatedInfo, s', ?_,
    ⟨houtcome, hcheckouts, htable, hclients⟩⟩
  simp only [turn, hphase, phaseTurn, hparse, heq, Turn.map]

end Handler

/-! ### Runs -/

namespace ServiceWorld

variable {v : Service} {w w' : ServiceWorld} {e : ServiceEvent} {t : List ServiceEvent}

/-- A turn of a handler whose message asks to open a document of a repository. -/
def Opening (v : Service) (key : RepositoryKey) (w : ServiceWorld) (e : ServiceEvent)
    (w' : ServiceWorld) : Prop :=
  ∃ n h d text, w.handlers[n]? = some (some h) ∧
    Request.parse h.message.name h.message.userInfo = .ok (.didOpen d text) ∧
      d.repository.key = key ∧ Acts v n w e w'

/-- What a service spares, whoever asks. -/
structure Frugal (v : Service) (start : ServiceWorld) (t : List ServiceEvent) (w : ServiceWorld) :
    Prop where
  /-- Sessions are made only when somebody opens a document. -/
  size : ∀ e w', Step v w e w' → (∀ key, ¬ Opening v key w e w') →
    w'.state.sessions.table.Sublist w.state.sessions.table ∧
      w'.state.sessions.all.length = w.state.sessions.all.length
  /-- A session comes into the table only when somebody opens a document of its repository. -/
  entries : ∀ e w' key n, Step v w e w' → (key, n) ∈ w'.state.sessions.table →
    (key, n) ∈ w.state.sessions.table ∨ Opening v key w e w'
  /-- A server is started only for a session that was handed out when somebody opened a document of its
  repository, unless it was going to be started in the beginning. -/
  launches : ∀ n spec w', Step v w (.inside n (.launch spec)) w' →
    start.state.sessions.Launching n spec ∨
      ∃ key u e u', Through (Step v) start t w u e u' ∧ Opening v key u e u' ∧
        n = (u.state.sessions.get key).1
  /-- A message that is no request makes nobody wait and is answered on the spot with what is wrong with
  it; everything stays as it is, also if its handler is given up. -/
  rejected : ∀ (n : Nat) (h : Handler) err, w.handlers[n]? = some (some h) →
    Request.parse h.message.name h.message.userInfo = .error err →
      h.wants = .nothing ∧ h.drop w.state = w.state ∧
        ∀ strand news, h.turn v w.now strand news w.state = .finished
          ((Reply.error h.message.name err.message).addressed h.message.tab h.message.repeatedInfo) w.state
  /-- A request about a session that does not run is refused on the spot. -/
  refused : ∀ (n : Nat) (h : Handler) request repository, w.handlers[n]? = some (some h) →
    h.phase = .arrived → Request.parse h.message.name h.message.userInfo = .ok request →
      request.visits? = some repository → ¬ w.state.sessions.Runs repository.key →
        ∀ strand news, ∃ reply s', h.turn v w.now strand news w.state = .finished reply s' ∧
          Handler.Refused w.state reply s'
  /-- A handler of such a request that has not been refused has found a session that ran. -/
  visited : ∀ (n : Nat) (h : Handler) request repository, w.handlers[n]? = some (some h) →
    h.phase ≠ .arrived → Request.parse h.message.name h.message.userInfo = .ok request →
      request.visits? = some repository → ∃ u e u', Through (Step v) start t w u e u' ∧
        Acts v n u e u' ∧ u.handlers[n]? = some (some (.begin h.message)) ∧
          u.state.sessions.Runs repository.key

/-- Handlers have the requests of their messages, and no servers to start. -/
def Tidy (w : ServiceWorld) : Prop :=
  ∀ (n : Nat) (h : Handler), w.handlers[n]? = some (some h) → h.Sound ∧ h.phase.Settled

/-- A handler of a message that is no request has done nothing. -/
theorem Tidy.phase_eq (hw : w.Tidy) {n : Nat} {h : Handler} {err : Request.Error}
    (hn : w.handlers[n]? = some (some h))
    (hparse : Request.parse h.message.name h.message.userInfo = .error err) : h.phase = .arrived := by
  rcases (hw n h hn).1 with hphase | ⟨request, hok, -⟩
  · exact hphase
  · rw [hparse] at hok
    cases hok

/-- What a turn of a handler does to sessions, and to what it is going to do. -/
theorem Tidy.acts (hw : w.Tidy) {n : Nat} (hacts : Acts v n w e w') :
    (w.state.sessions.Spares w'.state.sessions ∨
        ∃ key, Opening v key w e w' ∧ w.state.sessions.Opens key w'.state.sessions) ∧
      ∀ h, w'.handlers[n]? = some (some h) → h.phase.Settled := by
  have hself : ∀ {a b : Option Handler}, w.handlers[n]? = some a → (w.handlers.set n b)[n]? = some b :=
    fun hn ↦ List.getElem?_set_self (List.getElem?_eq_some_iff.mp hn).1
  -- What is known of the phase that the handler was in says which turns it can have taken.
  have hcases : ∀ h, w.handlers[n]? = some (some h) →
      (∃ d text settings, h.phase = .loaded (.didOpen d text) settings ∧
        Opening v d.repository.key w e w') ∨
        ∀ d text settings, h.phase ≠ .loaded (.didOpen d text) settings := by
    intro h hn
    by_cases hphase : ∃ d text settings, h.phase = .loaded (.didOpen d text) settings
    · obtain ⟨d, text, settings, hphase⟩ := hphase
      refine Or.inl ⟨d, text, settings, hphase, ?_⟩
      rcases (hw n h hn).1 with harrived | ⟨request, hparse, hknows⟩
      · rw [hphase] at harrived
        cases harrived
      · rw [hphase] at hknows
        obtain ⟨rfl, -⟩ := hknows
        exact ⟨n, h, d, text, hn, hparse, rfl, hacts⟩
    · exact Or.inr fun d text settings heq ↦ hphase ⟨d, text, settings, heq⟩
  cases hacts with
  | @moved h h' s strand news hn hturn =>
    obtain ⟨phase, hphase, rfl⟩ := Handler.turn_eq_moved hturn
    have hsettled := (hw n h hn).2
    suffices hresult : (w.state.sessions.Spares s.sessions ∨ ∃ key, Opening v key w .other
        { w with state := s, handlers := w.handlers.set n (some { h with phase := phase }) } ∧
          w.state.sessions.Opens key s.sessions) ∧ phase.Settled by
      refine ⟨hresult.1, fun h' hn' ↦ ?_⟩
      obtain rfl := Option.some.inj (Option.some.inj ((hself hn).symm.trans hn'))
      exact hresult.2
    rcases hcases h hn with ⟨d, text, settings, heq, hopening⟩ | hopen
    · have hcomes : Handler.Comes (Handler.Opened d.repository.key w.state.sessions)
          (Handler.phaseTurn v w.now strand news h.message (.loaded (.didOpen d text) settings) w.state) :=
        Handler.opened_phaseTurn d text settings
      rw [← heq, hphase] at hcomes
      cases hcomes with
      | moved h => exact ⟨Or.inr ⟨_, hopening, h.sessions⟩, h.settled _ rfl⟩
    · have hcomes : Handler.Comes (Handler.Spared w.state.sessions)
          (Handler.phaseTurn v w.now strand news h.message h.phase w.state) :=
        Handler.spared_phaseTurn hsettled hopen
      rw [hphase] at hcomes
      cases hcomes with
      | moved h => exact ⟨Or.inl h.sessions, h.settled _ rfl⟩
  | @finished h reply s strand news hn hturn =>
    obtain ⟨unaddressed, hphase, rfl⟩ := Handler.turn_eq_finished hturn
    refine ⟨?_, fun h' hn' ↦ absurd ((hself hn).symm.trans hn') nofun⟩
    rcases hcases h hn with ⟨d, text, settings, heq, hopening⟩ | hopen
    · have hcomes : Handler.Comes (Handler.Opened d.repository.key w.state.sessions)
          (Handler.phaseTurn v w.now strand news h.message (.loaded (.didOpen d text) settings) w.state) :=
        Handler.opened_phaseTurn d text settings
      rw [← heq, hphase] at hcomes
      cases hcomes with
      | finished h => exact Or.inr ⟨_, hopening, h.sessions⟩
    · have hcomes : Handler.Comes (Handler.Spared w.state.sessions)
          (Handler.phaseTurn v w.now strand news h.message h.phase w.state) :=
        Handler.spared_phaseTurn (hw n h hn).2 hopen
      rw [hphase] at hcomes
      cases hcomes with
      | finished h => exact Or.inl h.sessions

/-- What a step does to sessions. -/
theorem Tidy.spares_or_opens (hw : w.Tidy) (hstep : Step v w e w') :
    w.state.sessions.Spares w'.state.sessions ∨
      ∃ key, Opening v key w e w' ∧ w.state.sessions.Opens key w'.state.sessions := by
  cases hstep with
  | arrive | change | pass => exact Or.inl (.refl _)
  | turn strand news hn hturn => exact (hw.acts (.moved strand news hn hturn)).1
  | finish strand news hn hturn => exact (hw.acts (.finished strand news hn hturn)).1
  | @drop n h hn => exact Or.inl (h.spares_drop w.state)
  | inside h => exact Or.inl (.background h)

theorem Tidy.step (hw : w.Tidy) (hstep : Step v w e w') : w'.Tidy := by
  intro m a ha
  cases hstep with
  | arrive message =>
    rcases getElem?_concat_eq_some.mp ha with ha | ⟨-, heq⟩
    · exact hw m a ha
    · obtain rfl := Option.some.inj heq
      exact ⟨Handler.sound_begin message, True.intro⟩
  | @turn n h h' s strand news hn hturn =>
    have hsettled := (hw.acts (.moved strand news hn hturn)).2
    rcases (getElem?_set_eq_some hn).mp ha with ⟨rfl, heq⟩ | ⟨-, ha'⟩
    · obtain rfl := Option.some.inj heq
      exact ⟨(Handler.sound_of_moved (hw m h hn).1 hturn).1, hsettled a ha⟩
    · exact hw m a ha'
  | @finish n h reply s strand news hn hturn =>
    rcases (getElem?_set_eq_some hn).mp ha with ⟨-, heq⟩ | ⟨-, ha'⟩
    · cases heq
    · exact hw m a ha'
  | @drop n h hn =>
    rcases (getElem?_set_eq_some hn).mp ha with ⟨-, heq⟩ | ⟨-, ha'⟩
    · cases heq
    · exact hw m a ha'
  | inside | change | pass => exact hw m a ha

theorem tidy_of_run {start : ServiceWorld} (hnone : start.handlers = [])
    (h : Run (Step v) start t w) : w.Tidy :=
  h.invariant (P := fun _ w ↦ w.Tidy) (fun n a ha ↦ by simp [hnone] at ha)
    fun _ _ _ _ _ hw hstep ↦ hw.step hstep

/-- A server that is going to be started was so in the beginning, or belongs to a session that was handed
out when somebody opened a document. -/
theorem opening_of_launching {start : ServiceWorld} (hnone : start.handlers = [])
    (h : Run (Step v) start t w) {n : Nat} {spec : LaunchSpec}
    (hn : w.state.sessions.Launching n spec) : start.state.sessions.Launching n spec ∨
      ∃ key u e u', Through (Step v) start t w u e u' ∧ Opening v key u e u' ∧
        n = (u.state.sessions.get key).1 := by
  induction h with
  | nil => exact Or.inl hn
  | @snoc t e u w hu hstep ih =>
    have hbefore : u.state.sessions.Launching n spec → start.state.sessions.Launching n spec ∨
        ∃ key a e' b, Through (Step v) start (t ++ [e]) w a e' b ∧ Opening v key a e' b ∧
          n = (a.state.sessions.get key).1 := by
      intro hn
      refine (ih hn).imp_right ?_
      rintro ⟨key, a, e', b, hthrough, hopening, hget⟩
      exact ⟨key, a, e', b, hthrough.snoc hstep, hopening, hget⟩
    rcases (tidy_of_run hnone hu).spares_or_opens hstep with hspares | ⟨key, hopening, hopens⟩
    · exact hbefore (hspares.launching n spec hn)
    · rcases hopens.launching n spec hn with hn | hget
      · exact hbefore hn
      · exact Or.inr ⟨key, u, e, w, hu.through_last hstep, hopening, hget⟩

/-- A handler that goes on after its first turn, and whose request is about a session that has to run, has
found one. -/
theorem runs_of_moved {h h' : Handler} {s : ServiceState} {strand : Nat} {news : HandlerNews}
    {request : Request} {repository : RepositoryArgs} (hphase : h.phase = .arrived)
    (hturn : h.turn v w.now strand news w.state = .moved h' s)
    (hparse : Request.parse h.message.name h.message.userInfo = .ok request)
    (hvisits : request.visits? = some repository) : w.state.sessions.Runs repository.key := by
  by_contra hnot
  obtain ⟨reply, s', heq, -⟩ : ∃ reply s', h.turn v w.now strand news w.state = .finished reply s' ∧
      Handler.Refused w.state reply s' :=
    Handler.refused_of_visits hphase hparse hvisits hnot
  rw [hturn] at heq
  cases heq

/-- A handler whose request is about a session that has to run, and that has taken a turn, has found one
that ran. -/
theorem exists_runs_of_run {start : ServiceWorld} (hnone : start.handlers = [])
    (hrun : Run (Step v) start t w) {n : Nat} {h : Handler} {request : Request}
    {repository : RepositoryArgs} (hn : w.handlers[n]? = some (some h)) (hphase : h.phase ≠ .arrived)
    (hparse : Request.parse h.message.name h.message.userInfo = .ok request)
    (hvisits : request.visits? = some repository) : ∃ u e u', Through (Step v) start t w u e u' ∧
      Acts v n u e u' ∧ u.handlers[n]? = some (some (.begin h.message)) ∧
        u.state.sessions.Runs repository.key := by
  induction hrun generalizing h with
  | nil => simp [hnone] at hn
  | @snoc t e u w hu hstep ih =>
    have hbefore : ∀ {a : Handler}, u.handlers[n]? = some (some a) → a.message = h.message →
        a.phase ≠ .arrived → ∃ a e' b, Through (Step v) start (t ++ [e]) w a e' b ∧ Acts v n a e' b ∧
          a.handlers[n]? = some (some (.begin h.message)) ∧ a.state.sessions.Runs repository.key := by
      intro a ha hmessage hphase
      obtain ⟨x, e', y, hthrough, hacts, hx, hruns⟩ := ih ha hphase (hmessage ▸ hparse)
      exact ⟨x, e', y, hthrough.snoc hstep, hacts, hmessage ▸ hx, hruns⟩
    cases hstep with
    | arrive message =>
      rcases getElem?_concat_eq_some.mp hn with hn | ⟨-, heq⟩
      · exact hbefore hn rfl hphase
      · obtain rfl := Option.some.inj heq
        exact absurd rfl hphase
    | @turn m a a' s strand news hm hturn =>
      rcases (getElem?_set_eq_some hm).mp hn with ⟨rfl, heq⟩ | ⟨-, hn⟩
      · obtain rfl := Option.some.inj heq
        obtain ⟨phase, -, rfl⟩ := Handler.turn_eq_moved hturn
        by_cases harrived : a.phase = .arrived
        · refine ⟨u, _, _, hu.through_last (.turn strand news hm hturn), .moved strand news hm hturn, ?_,
            runs_of_moved harrived hturn hparse hvisits⟩
          rw [hm, Handler.begin, ← harrived]
        · exact hbefore hm rfl harrived
      · exact hbefore hn rfl hphase
    | @finish m a reply s strand news hm hturn =>
      rcases (getElem?_set_eq_some hm).mp hn with ⟨-, heq⟩ | ⟨-, hn⟩
      · cases heq
      · exact hbefore hn rfl hphase
    | @drop m a hm =>
      rcases (getElem?_set_eq_some hm).mp hn with ⟨-, heq⟩ | ⟨-, hn⟩
      · cases heq
      · exact hbefore hn rfl hphase
    | inside | change | pass => exact hbefore hn rfl hphase

/-- Whatever the service shares in the beginning, and in whatever order messages arrive and handlers take
turns, it is frugal. -/
theorem frugal_of_run {s : ServiceState} {launching : Nat → Option LaunchSpec} {now : Nat}
    (h : Run (Step v) ⟨s, [], launching, now⟩ t w) : Frugal v ⟨s, [], launching, now⟩ t w := by
  have hw : w.Tidy := tidy_of_run rfl h
  refine ⟨fun e w' hstep hnot ↦ ?_, fun e w' key n hstep hmem ↦ ?_, fun n spec w' hstep ↦ ?_,
    fun n a err hn hparse ↦ ?_, fun n a request repository _ hphase hparse hvisits hnot _ _ ↦
      Handler.refused_of_visits hphase hparse hvisits hnot,
    fun n a request repository hn hphase hparse hvisits ↦
      exists_runs_of_run rfl h hn hphase hparse hvisits⟩
  · rcases hw.spares_or_opens hstep with hspares | ⟨key, hopening, -⟩
    · exact ⟨hspares.table, hspares.size⟩
    · exact absurd hopening (hnot key)
  · rcases hw.spares_or_opens hstep with hspares | ⟨key', hopening, hopens⟩
    · exact Or.inl (hspares.table.subset hmem)
    · refine (hopens.table _ hmem).imp_right fun heq ↦ ?_
      obtain ⟨rfl, -⟩ := Prod.mk.inj heq
      exact hopening
  · cases hstep with
    | inside hback =>
      cases hback with
      | launch hs hspec => exact opening_of_launching rfl h ((Sessions.launching_iff hs).mpr hspec)
  · have hphase := hw.phase_eq hn hparse
    obtain ⟨message, phase⟩ := a
    obtain rfl : phase = .arrived := hphase
    exact ⟨rfl, rfl, fun _ _ ↦ Handler.turn_of_error rfl hparse⟩

/-! ### An example -/

/-- The message of a page that asks what is said of a token of some repository. -/
def hoverMessage : PageMessage :=
  ⟨"hover", .ofFields [("resource", .string "h"), ("slug", .string "a/b"), ("filepath", .string "m.c"),
    ("line", .nat 0), ("character", .nat 0), ("text", .string "m")], none⟩

/-- Three messages arrive: one is no request, one is about a token, and one opens a document, whose
handler goes on until it waits for the server to be started. -/
def earlyMoves : List ServiceMove :=
  [.arrive ⟨"rename", .null, none⟩, .arrive hoverMessage, .arrive (openingMessage "m.c" "int m;"),
    .go 2, .go 2, .go 2]

/-- The first message is no request, the handler of the second one has not begun, the session of its
repository is being initialized, and its server may be started. -/
def isEarly (w : ServiceWorld) : Bool :=
  ((w.handlers[0]?).join.any fun h ↦
      (Request.parse h.message.name h.message.userInfo).toOption.isNone) &&
    ((w.handlers[1]?).join.any fun h ↦ match h.phase,
        Request.parse h.message.name h.message.userInfo with
      | .arrived, .ok (.hover _) => true
      | _, _ => false) &&
    ((w.session? 0).any fun s ↦ s.state = .initializing) &&
    (w.move plainService (.launch 0)).isSome

/-- While a document is being opened, others have not made the service do anything. -/
theorem frugal_early : ∃ t w, Run (Step plainService)
    ⟨⟨.none ⟨"/c"⟩ default, ⟨⟨[]⟩, .none, .empty⟩⟩, [], fun _ ↦ none, 0⟩ t w ∧ w.isEarly = true ∧
      Frugal plainService ⟨⟨.none ⟨"/c"⟩ default, ⟨⟨[]⟩, .none, .empty⟩⟩, [], fun _ ↦ none, 0⟩ t w := by
  obtain ⟨t, w, hrun, hcheck⟩ := exists_run_of_play (move plainService) (fun _ _ _ _ ↦ step_of_move)
    ⟨⟨.none ⟨"/c"⟩ default, ⟨⟨[]⟩, .none, .empty⟩⟩, [], fun _ ↦ none, 0⟩ earlyMoves
    (fun _ w ↦ w.isEarly) (by decide +kernel)
  exact ⟨t, w, hrun, hcheck, frugal_of_run hrun⟩

end ServiceWorld

end CodeNav
