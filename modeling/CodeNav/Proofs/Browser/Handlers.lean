import CodeNav.Proofs.Browser.Checkouts
import CodeNav.Proofs.Server.Polite

/-!
# Handlers and the sessions they use

Handlers of messages begin, go on and end in any order, and may be given up. What a handler does to
sessions is to hand them out, to make calls on them, and to take them out. Seen from one session, every
turn of a handler is a run of callers for this session.

A handler that opens a document has the server told before that the handshake is over, so that the
document is never opened too early.

## Main definitions

* `HandlerPhase.calls`: the calls on sessions that go on for a handler
* `SessionCall.isMannered`: calls in a row that open no document too early
* `HandlerPhase.Sound`: what a handler may rely on in a phase
* `HandlerPhase.Serves`: a turn of a handler is a run for a session

## Main statements

* `SessionWorld.regime_steady`: the steps that keep messages in order are a regime
* `Handler.serves_makeCalls`, `Handler.serves_ofCheckout`: calls in a row, and calls on checkouts
* `Handler.serves_phaseTurn`: every turn of a handler is a run for a session
* `Handler.leads_drop`: so is giving up a handler
-/

namespace CodeNav

/-! ### Steps that keep messages in order -/

namespace SessionWorld

/-- Steps with which no message gets lost are a regime. -/
theorem regime_steady : Regime Steady where
  step h := h.step
  free h hfree haccepts :=
    ⟨h, haccepts, fun _ _ _ he _ ↦ (by subst he; cases hfree),
      fun _ _ _ _ _ he ↦ (by subst he; cases hfree)⟩

/-- Documents may be opened once the server is told that the handshake is over. -/
theorem mayBegin_steady {s : Session} {what : SessionCall}
    (h : ∀ path text, what = .didOpen path text → s.initializedSent = true) :
    MayBegin Steady s what := by
  rintro u v n state r rfl hstep haccepts
  refine ⟨hstep, haccepts, fun _ _ _ he _ ↦ (by cases he), fun _ path text _ _ he ↦ ?_⟩
  injection he with _ hwhat
  exact h path text hwhat

/-- A call that does not wait with a message may be given up. -/
theorem mayDrop_steady {phase : SessionPhase} (h : phase.draft? = none) : MayDrop Steady phase := by
  intro u v n what hn hstep haccepts
  refine ⟨hstep, haccepts, fun m what' phase' he hm ↦ ?_, fun _ _ _ _ _ he ↦ (by cases he)⟩
  obtain rfl := SessionEvent.dropped.inj he
  obtain ⟨-, hphase⟩ := SessionEntry.mk.inj (Option.some.inj (hn.symm.trans hm))
  rw [← Option.some.inj hphase]
  exact h

theorem mayLaunch_steady : MayLaunch Steady :=
  fun _ _ _ hstep haccepts ↦ ⟨hstep, haccepts, fun _ _ _ he _ ↦ (by cases he),
    fun _ _ _ _ _ he ↦ (by cases he)⟩

/-- The server may take messages. -/
theorem mayServe_steady : MayServe Steady true :=
  fun _ _ hstep haccepts ↦ ⟨hstep, fun _ ↦ haccepts, fun _ _ _ he _ ↦ (by cases he),
    fun _ _ _ _ _ he ↦ (by cases he)⟩

variable {w w' : SessionWorld} {e : SessionEvent} {t : List SessionEvent}

/-- What was said to the server is not taken back. -/
theorem initializedSent_of_step (h : Step w e w') (hsent : w.session.initializedSent = true) :
    w'.session.initializedSent = true :=
  h.initializedSent.elim (·.trans hsent) And.left

theorem initializedSent_of_run (h : Run Steady w t w') (hsent : w.session.initializedSent = true) :
    w'.session.initializedSent = true := by
  induction h with
  | nil => exact hsent
  | snoc _ hstep ih => exact initializedSent_of_step hstep.step ih

end SessionWorld

/-! ### Calls in a row -/

/-- Whether calls that are made one after the other have the server told that the handshake is over
before they open a document. -/
def SessionCall.isMannered : List SessionCall → Bool
  | [] => true
  | .initialized :: _ => true
  | .didOpen _ _ :: _ => false
  | _ :: rest => isMannered rest

/-- Calls that may be made on a session one after the other. -/
def Session.Prepared (s : Session) (calls : List SessionCall) : Prop :=
  s.initializedSent = true ∨ SessionCall.isMannered calls = true

namespace Session

variable {s s' : Session} {call : SessionCall} {rest : List SessionCall}

/-- The first of the calls opens no document too early. -/
theorem Prepared.head (h : s.Prepared (call :: rest)) {path text : String}
    (hcall : call = .didOpen path text) : s.initializedSent = true := by
  subst hcall
  exact h.resolve_right nofun

/-- What comes after a call that did not fail may be made too. -/
theorem Prepared.tail (h : s.Prepared (call :: rest))
    (hbegun : ∀ e, (begin call s).1 ≠ .inr (.error e)) : (begin call s).2.Prepared rest := by
  have hbegins := s.begins_begin call
  have hsent : s.initializedSent = true → (begin call s).2.initializedSent = true := fun hsent ↦ by
    by_cases htell : ∃ note, (begin call s).1 = .inl (.telling note)
    · obtain ⟨note, hnote⟩ := htell
      exact (hbegins.of_telling hnote).2.2.1
    · exact (hbegins.initializedSent fun note hnote ↦ htell ⟨note, hnote⟩).trans hsent
  rcases h with h | h
  · exact Or.inl (hsent h)
  · cases call with
    | initialized =>
      -- Whoever has the server told, or finds that it was told, leaves it told.
      refine Or.inl ?_
      simp only [begin] at hbegun ⊢
      split
      · rename_i e he
        simp [he] at hbegun
      · split
        · assumption
        · split <;> rfl
    | didOpen => cases h
    | _ => exact Or.inr h

end Session

/-! ### What goes on for a handler -/

namespace HandlerPhase

/-- The calls on sessions that go on for a handler. -/
def calls : HandlerPhase → List (Nat × SessionPhase)
  | calling _ n phase _ => [(n, phase)]
  | synchronizing _ _ (some e) => e.phases
  | removing _ (some e) => e.phases
  | evicting _ e => e.phases
  | _ => []

/-- What a handler may rely on in a phase: the calls that it will make on a session may be made one
after the other, and sessions are taken out only as long as a checkout waits for it. -/
def Sound (n : Nat) (r : Sessions) : HandlerPhase → Prop
  | calling _ m _ rest => m = n → ∀ s, r.session? n = some s → s.Prepared rest
  | synchronizing _ call (some _) => ∃ key, call.wants = .invalidation key
  | removing call (some _) => ∃ key, call.wants = .invalidation key
  | _ => True

/-- A turn of a handler, beside other calls, is a run for the session with a number. -/
inductive Serves (n : Nat) (rest : List (Nat × SessionPhase)) (launching : Nat → Option LaunchSpec)
    (now : Nat) (h : Hosting) : HandlerTurn → Prop
  | parked {until? : Option Nat} : Serves n rest launching now h (.parked until?)
  | moved {phase : HandlerPhase} {s : ServiceState}
      (hleads : Hosting.Leads SessionWorld.Steady n h
        ⟨s.sessions, phase.calls ++ rest, launching, now⟩)
      (hsound : phase.Sound n s.sessions) : Serves n rest launching now h (.moved phase s)
  | finished {reply : Reply} {s : ServiceState}
      (hleads : Hosting.Leads SessionWorld.Steady n h ⟨s.sessions, rest, launching, now⟩) :
      Serves n rest launching now h (.finished reply s)

variable {n : Nat} {rest : List (Nat × SessionPhase)} {launching : Nat → Option LaunchSpec} {now : Nat}
  {h h' : Hosting}

theorem Serves.of_leads {turn : HandlerTurn} (hleads : Hosting.Leads SessionWorld.Steady n h h')
    (hserves : Serves n rest launching now h' turn) : Serves n rest launching now h turn := by
  cases hserves with
  | parked => exact .parked
  | moved hleads' hsound => exact .moved (hleads.trans hleads') hsound
  | finished hleads' => exact .finished (hleads.trans hleads')

theorem Idle.calls {p : HandlerPhase} (h : p.Idle) : p.calls = [] := by
  cases p <;> first | rfl | cases h

theorem Idle.sound {p : HandlerPhase} (h : p.Idle) (n : Nat) (r : Sessions) : p.Sound n r := by
  cases p <;> first | exact True.intro | cases h

end HandlerPhase

namespace Handler

open HandlerPhase (Idles Serves Sound ofCheckout)

variable {n m : Nat} {rest : List (Nat × SessionPhase)} {launching : Nat → Option LaunchSpec}
  {now : Nat} {name : String} {request : Request} {s : ServiceState} {v : Service}

/-- A turn that leaves sessions alone and ends. -/
theorem serves_finished {r : Sessions} {reply : Reply} (hs : s.sessions = r) :
    Serves n rest launching now ⟨r, rest, launching, now⟩ (.finished reply s) := by
  subst hs
  exact .finished (Hosting.leads_of_all rfl)

/-- A turn that leaves sessions alone and goes on without them. -/
theorem serves_moved {r : Sessions} {phase : HandlerPhase} (hs : s.sessions = r)
    (hcalls : phase.calls = []) (hsound : phase.Sound n s.sessions) :
    Serves n rest launching now ⟨r, rest, launching, now⟩ (.moved phase s) := by
  subst hs
  refine .moved ?_ hsound
  rw [hcalls]
  exact Hosting.leads_of_all rfl

theorem serves_of_idles {r : Sessions} {turn : HandlerTurn} (h : Comes (Idles r) turn) :
    Serves n rest launching now ⟨r, rest, launching, now⟩ turn := by
  cases h with
  | parked => exact .parked
  | moved h =>
    have hidle := h.idle _ rfl
    exact serves_moved h.sessions hidle.calls (hidle.sound n _)
  | finished h => exact serves_finished h.sessions

/-! ### Calls on sessions -/

/-- Calls that may be made one after the other are a run for their session. -/
theorem serves_makeCalls (calls : List SessionCall) (last : SessionResult) (s : ServiceState)
    (hprepared : m = n → ∀ x, s.sessions.session? n = some x → x.Prepared calls) :
    Serves n rest launching now ⟨s.sessions, rest, launching, now⟩
      (makeCalls name request m calls last s) := by
  induction calls generalizing last s with
  | nil => exact serves_finished rfl
  | cons call calls ih =>
    have hleads : Hosting.Leads SessionWorld.Steady n ⟨s.sessions, rest, launching, now⟩
        ⟨(s.sessions.beginOn m call).2,
          (SessionWorld.phaseOf (s.sessions.beginOn m call).1).toList.map (m, ·) ++ rest, launching,
          now⟩ :=
      Hosting.leads_beginOn call fun hmn x hx ↦ SessionWorld.mayBegin_steady fun path text ↦
        (hprepared hmn x (hmn ▸ hx)).head
    -- A call that did not fail leaves the session ready for those that follow.
    have htail : (∀ e, (s.sessions.beginOn m call).1 ≠ .inr (.error e)) → m = n →
        ∀ x, (s.sessions.beginOn m call).2.session? n = some x → x.Prepared calls := by
      rintro hbegun rfl x hx
      cases hm : s.sessions.session? m with
      | none => simp [Sessions.beginOn, hm] at hbegun
      | some y =>
        simp only [Sessions.beginOn, hm] at hbegun hx
        obtain rfl := Option.some.inj ((Sessions.session?_put_self hm _).symm.trans hx)
        exact (hprepared rfl y hm).tail hbegun
    simp only [makeCalls]
    split
    · rename_i phase r hbegin
      rw [hbegin] at hleads htail
      exact .moved hleads (htail (by simp))
    · rename_i e r hbegin
      rw [hbegin] at hleads
      exact .finished hleads
    · rename_i a r hbegin
      rw [hbegin] at hleads htail
      exact .of_leads hleads (ih (.ok a) (s.withSessions r) (htail (by simp)))

/-- A call on a session that has to be there opens no document. -/
theorem serves_callExisting (repository : RepositoryArgs) {call : SessionCall} (s : ServiceState)
    (hcall : SessionCall.isMannered [call] = true) :
    Serves n rest launching now ⟨s.sessions, rest, launching, now⟩
      (callExisting name request repository call s) := by
  simp only [callExisting]
  split
  · exact serves_finished rfl
  · exact serves_makeCalls _ _ _ fun _ _ _ ↦ Or.inr hcall

/-- Opening a document hands out a session and makes its calls in order. -/
theorem serves_openDocument (d : DocumentArgs) (text : String) (settings : Settings)
    (s : ServiceState) :
    Serves n rest launching now ⟨s.sessions, rest, launching, now⟩
      (openDocument name request d text settings s) := by
  simp only [openDocument]
  refine .of_leads (Hosting.leads_get SessionWorld.regime_steady d.repository.key) ?_
  exact serves_makeCalls _ _ (s.withSessions (s.sessions.get d.repository.key).2) fun _ _ _ ↦ Or.inr rfl

/-! ### Sessions that are taken out -/

/-- Taking sessions out is a run for each of them. -/
theorem serves_evict (one : Bool) (call : EvictionCall) (s : ServiceState) :
    Serves n rest launching now ⟨s.sessions, rest, launching, now⟩ (evict name one call s) := by
  have hleads : Hosting.Leads SessionWorld.Steady n ⟨s.sessions, rest, launching, now⟩
      ⟨(Eviction.begin call s.sessions).2,
        Eviction.callsOf (Eviction.begin call s.sessions).1.getLeft? ++ rest, launching, now⟩ :=
    Hosting.leads_evict SessionWorld.regime_steady call
  simp only [evict]
  split
  · rename_i e r hbegin
    rw [hbegin] at hleads
    exact .moved hleads True.intro
  · rename_i any r hbegin
    rw [hbegin] at hleads
    exact .finished hleads

/-- A handler that goes on with a call on a checkout. -/
theorem serves_ofCheckout {strand : Nat} {news : HandlerNews} {message : PageMessage}
    (request : Request) (k : CheckoutCall) (e : Option Eviction)
    (hsound : (ofCheckout request (k, e)).Sound n s.sessions) :
    Serves n rest launching now ⟨s.sessions, (ofCheckout request (k, e)).calls ++ rest, launching, now⟩
      (phaseTurn v now strand news message (ofCheckout request (k, e)) s) := by
  have hS := SessionWorld.regime_steady
  have hcalls : ∀ k' e', (ofCheckout request (k', e')).calls = Eviction.callsOf e' := by
    rintro (_ | _) (_ | _) <;> rfl
  -- Nothing is being taken out before the checkout has changed.
  have hnone : ¬ k.Tells → e = none := by
    intro hk
    cases e with
    | none => rfl
    | some e =>
      obtain ⟨key, hkey⟩ : ∃ key, k.wants = .invalidation key := by cases k <;> exact hsound
      exact absurd (CheckoutCall.tells_of_wants hkey).1 hk
  rw [phaseTurn_ofCheckout, hcalls]
  cases hturn : k.tellingTurn v.sync now news e s with
  | parked => exact .parked
  | moved after s' =>
    obtain ⟨k', e'⟩ := after
    rcases CheckoutCall.tellingTurn_eq_moved hturn with
      ⟨hk, -, rfl, hs⟩ | ⟨hk, rfl, e₁, r, rfl, rfl, hword⟩
    · rw [hnone hk]
      refine serves_moved hs (hcalls k' none) ?_
      cases k' <;> exact True.intro
    · refine .moved ?_ ?_
      · rw [hcalls]
        exact Hosting.leads_turnFor_moved hS hword
      · cases k' <;> exact ⟨_, hk⟩
  | finished x s' =>
    obtain ⟨-, ⟨hk, hs⟩ | ⟨hk, any, r, rfl, hword⟩⟩ := CheckoutCall.tellingTurn_eq_finished hturn
    · rw [hnone hk]
      exact serves_of_idles (idles_reported x hs)
    · exact .of_leads (Hosting.leads_turnFor_finished hS hword) (serves_of_idles (idles_reported x rfl))

/-! ### Turns -/

theorem serves_synchronize (url : String) (force : Bool) (settings : Settings) (s : ServiceState) :
    Serves n rest launching now ⟨s.sessions, rest, launching, now⟩
      (synchronize v name request url force settings s) := by
  delta synchronize
  split
  · exact serves_moved rfl rfl True.intro
  · rename_i result c _
    exact serves_of_idles (idles_synchronized result rfl)

/-- A request that begins. -/
theorem serves_start (request : Request) (s : ServiceState) :
    Serves n rest launching now ⟨s.sessions, rest, launching, now⟩
      (start v now name request s) := by
  cases request <;> (delta start; dsimp only)
  case openPage | didOpen | settings | updateSettings | checkoutRepository =>
    exact serves_moved rfl rfl True.intro
  case documentSymbol | shutdown => exact serves_callExisting _ s rfl
  case hover | definition | references | documentHighlight => exact serves_callExisting _ s rfl
  case exit | reset => exact serves_evict _ _ s
  case repository url => exact serves_of_idles (idles_inspect url rfl)
  case deleteRepository url =>
    split
    · exact serves_moved rfl rfl True.intro
    · exact serves_finished rfl
  case buildProgress a => exact serves_of_idles (idles_watch a s)

/-- A request whose settings were read. -/
theorem serves_settingsRead (request : Request) (settings : Except SettingsError Settings)
    (s : ServiceState) :
    Serves n rest launching now ⟨s.sessions, rest, launching, now⟩
      (settingsRead v name request settings s) := by
  simp only [settingsRead]
  split
  · split
    · split
      · exact serves_finished rfl
      · exact serves_synchronize _ _ _ s
    · exact serves_finished rfl
  · exact serves_openDocument _ _ _ s
  · exact serves_synchronize _ _ _ s
  · exact serves_finished rfl
  · split
    · exact serves_moved rfl rfl True.intro
    · exact serves_moved rfl rfl True.intro
  · exact serves_finished rfl

/-- A turn of a call leaves its session as ready for other calls as it was. -/
theorem leads_turnOn_prepared {r : Sessions} {fs : FileSystem} {phase : SessionPhase}
    {later : List SessionCall} (hprepared : ∀ x, r.session? m = some x → x.Prepared later) :
    (r.turnOn fs now m phase).Leads fun r' ↦ ∀ x, r'.session? m = some x → x.Prepared later := by
  simp only [Sessions.turnOn]
  split
  · exact hprepared
  · rename_i y hm
    have hput : ∀ y', y'.initializedSent = y.initializedSent → ∀ x,
        (r.put m y').session? m = some x → x.Prepared later := by
      intro y' hsent x hx
      obtain rfl := Option.some.inj ((Sessions.session?_put_self hm y').symm.trans hx)
      exact (hprepared y hm).imp_left hsent.trans
    refine Turn.leads_lift (Turn.leads_iff.mpr ⟨fun phase' y' hturn ↦ ?_, fun result y' hturn ↦ ?_⟩)
    · exact hput y' (Session.goes_of_turn hturn).initializedSent
    · exact hput y' (Session.ends_of_turn hturn).initializedSent

/-- Calls on a session that go on. -/
theorem serves_calling {fs : FileSystem} {phase : SessionPhase} (later : List SessionCall)
    (hprepared : m = n → ∀ x, s.sessions.session? n = some x → x.Prepared later) :
    Serves n rest launching now ⟨s.sessions, (m, phase) :: rest, launching, now⟩
      (((s.sessions.turnOn fs now m phase).lift s.withSessions).map
        (fun phase ↦ .calling request m phase later) fun result s ↦
          match result with
          | .error e => .finished (sessionReply name request (.error e)) s
          | .ok a => makeCalls name request m later (.ok a) s) := by
  have hS := SessionWorld.regime_steady
  have hkept : m = n → (s.sessions.turnOn fs now m phase).Leads
      fun r ↦ ∀ x, r.session? n = some x → x.Prepared later := by
    rintro rfl
    exact leads_turnOn_prepared (hprepared rfl)
  cases hturn : s.sessions.turnOn fs now m phase with
  | parked => exact .parked
  | moved phase' r =>
    rw [hturn] at hkept
    exact .moved (Hosting.leads_turnOn_moved hS hturn) hkept
  | finished result r =>
    rw [hturn] at hkept
    refine .of_leads (Hosting.leads_turnOn_finished hS hturn) ?_
    cases result with
    | error e => exact serves_finished rfl
    | ok a => exact serves_makeCalls later (.ok a) (s.withSessions r) hkept

/-- Every turn of a handler is a run for a session. -/
theorem serves_phaseTurn {strand : Nat} {news : HandlerNews} {message : PageMessage}
    {phase : HandlerPhase} (hsound : phase.Sound n s.sessions) :
    Serves n rest launching now ⟨s.sessions, phase.calls ++ rest, launching, now⟩
      (phaseTurn v now strand news message phase s) := by
  cases phase with
  | arrived =>
    simp only [phaseTurn]
    split
    · exact serves_finished rfl
    · exact serves_start _ s
  | loading request => exact serves_moved rfl rfl True.intro
  | loaded request settings =>
    simp only [phaseTurn]
    exact serves_settingsRead request settings s
  | calling request m phase later => exact serves_calling later hsound
  | synchronizing request call e => exact serves_ofCheckout request (.sync call) e hsound
  | removing call e => exact serves_ofCheckout .reset (.removal call) e hsound
  | evicting one e =>
    simp only [phaseTurn]
    cases hturn : e.turn s.fs now strand s.sessions with
    | parked => exact .parked
    | moved e' r =>
      exact .moved (Hosting.leads_evictionTurn_moved SessionWorld.regime_steady hturn) True.intro
    | finished any r =>
      exact .finished (Hosting.leads_evictionTurn_finished SessionWorld.regime_steady hturn)
  | inspecting | watching | locating | saving => exact serves_of_idles (idles_phaseTurn True.intro)

/-- Giving up a handler is a run for a session, as long as none of its calls waits with a message for
this session. -/
theorem leads_drop (h : Handler) (s : ServiceState)
    (hidle : ∀ phase, (n, phase) ∈ h.phase.calls → phase.draft? = none) :
    Hosting.Leads SessionWorld.Steady n ⟨s.sessions, h.phase.calls ++ rest, launching, now⟩
      ⟨(h.drop s).sessions, rest, launching, now⟩ := by
  obtain ⟨message, phase⟩ := h
  have hevictions : ∀ e : Eviction, (∀ phase, (n, phase) ∈ e.phases → phase.draft? = none) →
      Hosting.Leads SessionWorld.Steady n ⟨s.sessions, e.phases ++ rest, launching, now⟩
        ⟨e.drop s.sessions, rest, launching, now⟩ := fun e hidle ↦
    Hosting.leads_evictionDrop fun phase hphase ↦ SessionWorld.mayDrop_steady (hidle phase hphase)
  cases phase with
  | calling request m phase later =>
    refine Hosting.leads_dropOn fun hmn ↦ SessionWorld.mayDrop_steady (hidle phase ?_)
    subst hmn
    exact List.mem_cons_self
  | synchronizing request call e =>
    cases e with
    | none => exact Hosting.leads_of_all rfl
    | some e => exact hevictions e hidle
  | removing call e =>
    cases e with
    | none => exact Hosting.leads_of_all rfl
    | some e => exact hevictions e hidle
  | evicting one e => exact hevictions e hidle
  | arrived | loading | loaded | inspecting | watching | locating | saving =>
    exact Hosting.leads_of_all rfl

end Handler

end CodeNav
