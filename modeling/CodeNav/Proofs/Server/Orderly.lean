import CodeNav.Proofs.Server.Lifecycle

/-!
# What callers of a session may rely on

Whatever callers, launcher and server do, a session goes through its life once: it is created, it is
initialized by one call, whose handshake calls the launcher once, it runs once the server has
answered well, and when it is closed it stays closed.

## Main definitions

* `SessionWorld.Orderly`: what callers may rely on

## Main statements

* `SessionWorld.orderly_of_run`: callers may rely on it in every run
-/

namespace CodeNav

namespace SessionWorld

variable {w w' : SessionWorld} {t before after : List SessionEvent} {e : SessionEvent}
  {key : RepositoryKey} {checkout : Path} {options : SessionOptions}

/-- What callers may rely on, after a history of events. -/
structure Orderly (key : RepositoryKey) (checkout : Path) (options : SessionOptions)
    (t : List SessionEvent) (w : SessionWorld) : Prop where
  /-- The session never goes back. -/
  forward : ∀ before after u, t = before ++ after →
    Run Step (create key checkout options) before u → Run Step u after w →
    u.session.state.rank ≤ w.session.state.rank
  /-- One call at most moves the session on to its handshake. -/
  starts : t.countP SessionEvent.starts ≤ 1
  /-- The launcher is called once at most. -/
  launches : t.countP SessionEvent.launches ≤ 1
  /-- The launcher is called for the call that has moved the session on. -/
  launch : ∀ before spec after, t = before ++ .launch spec :: after →
    ∃ n context, .began n (.start context) .created none ∈ before ∧
      spec = LaunchSpec.of context options.server options.usualCommand checkout
  /-- While the session is initializing, there is one handshake that was begun and is not over. -/
  handshake : w.session.state = .initializing →
    t.countP SessionEvent.starts = 1 ∧ t.countP SessionEvent.ends = 0 ∧
      w.session.handshake.isAlive = true
  /-- Once the handshake is over, the session runs or is closed. -/
  ended : (∃ e ∈ t, e.ends = true) →
    w.session.state = .running ∨ w.session.state = .closed
  /-- Who waits for the session is told that it is ready only after the server has answered. -/
  ready : ∀ before e after a, t = before ++ e :: after → e.gives = some (.ready, .ok a) →
    Answered before
  /-- A session that is closed is not started again. -/
  closed : ∀ n context state result v, Step w (.began n (.start context) state result) v →
    w.session.observe.state = .closed →
    result = some (.error .closed) ∧ v.session = w.session.observe ∧ v.launching = w.launching

/-! ### Who is told that a session is ready -/

/-- Only a session that runs is ready. -/
theorem state_of_readiness {s : Session} {a : SessionAnswer} (h : s.observe.readiness = .ok a) :
    s.state = .running := by
  have hrunning : s.observe.state = .running := by
    simp only [Session.readiness] at h
    split at h
    · assumption
    · simp at h
    · simp at h
  exact (s.beside_observe.state_eq (by simp [hrunning])).trans hrunning

/-- Who waits for a session to be ready waits for nothing else. -/
def Waits (w : SessionWorld) : Prop :=
  ∀ (n : Nat) (phase : SessionPhase),
    w.calls[n]? = some ⟨SessionCall.ready, some phase⟩ → phase = .awaitingReady

theorem Waits.step (h : w.Waits) (hstep : Step w e w') : w'.Waits := by
  intro m phase hm
  cases hstep with
  | begin what =>
    rcases getElem?_concat_eq_some.mp hm with hm | ⟨-, hnew⟩
    · exact h m phase hm
    · obtain ⟨rfl, hphase⟩ := SessionEntry.mk.inj hnew
      simp only [Session.begin] at hphase
      split at hphase
      · exact Option.some.inj hphase
      · simp [phaseOf] at hphase
  | @turn n what phase₀ phase' s fs hn hturn =>
    rcases (getElem?_set_eq_some hn).mp hm with ⟨rfl, hnew⟩ | ⟨-, hm⟩
    · obtain ⟨rfl, hphase⟩ := SessionEntry.mk.inj hnew
      obtain rfl := h m phase₀ hn
      simp only [Session.turn] at hturn
      split at hturn <;> simp at hturn
    · exact h m phase hm
  | finish fs hn hturn =>
    rcases (getElem?_set_eq_some hn).mp hm with ⟨-, hnew⟩ | ⟨-, hm⟩
    · simp at hnew
    · exact h m phase hm
  | drop hn =>
    rcases (getElem?_set_eq_some hn).mp hm with ⟨-, hnew⟩ | ⟨-, hm⟩
    · simp at hnew
    · exact h m phase hm
  | _ => exact h m phase hm

theorem waits_of_run (h : Run Step (create key checkout options) t w) : w.Waits := by
  refine h.invariant (P := fun _ w ↦ w.Waits) ?_ fun _ _ _ _ _ hu hstep ↦ hu.step hstep
  intro n phase hn
  simp [create] at hn

/-- Who is told that a session is ready is told so while it runs. -/
theorem ready_of_run
    (h : Run Step (create key checkout options) (before ++ e :: after) w) {a : SessionAnswer}
    (he : e.gives = some (.ready, .ok a)) : Answered before := by
  obtain ⟨u, v, hu, hstep, -, -⟩ := h.split
  refine (lived_of_run hu).traced.running ?_
  cases hstep with
  | begin what =>
    cases hresult : resultOf (Session.begin what u.session).1 with
    | none => simp [SessionEvent.gives, hresult] at he
    | some r =>
      simp only [SessionEvent.gives, hresult, Option.some.injEq, Prod.mk.injEq] at he
      obtain ⟨rfl, rfl⟩ := he
      simp only [Session.begin] at hresult
      split at hresult
      · simp [resultOf] at hresult
      · exact state_of_readiness (Option.some.inj hresult)
  | @finish n what phase r s fs hn hturn =>
    simp only [SessionEvent.gives, Option.some.injEq, Prod.mk.injEq] at he
    obtain ⟨rfl, rfl⟩ := he
    obtain rfl := waits_of_run hu n phase hn
    simp only [Session.turn] at hturn
    split at hturn
    · simp at hturn
    · exact state_of_readiness (Turn.finished.inj hturn).1
  | @read e c c' hclient hread hreading =>
    subst hreading
    cases hr : c.reading <;> simp [hr, SessionEvent.ofReading, SessionEvent.gives] at he
  | _ => simp [SessionEvent.gives] at he

/-- The launcher is called for the call that has moved the session on to its handshake. -/
theorem launch_of_run {spec : LaunchSpec}
    (h : Run Step (create key checkout options) (before ++ .launch spec :: after) w) :
    ∃ n context, .began n (.start context) .created none ∈ before ∧
      spec = LaunchSpec.of context options.server options.usualCommand checkout := by
  obtain ⟨u, v, hu, hstep, -, -⟩ := h.split
  cases hstep.effect with
  | beside calls now hs hstarts hlaunches hends => cases hlaunches
  | launch hspec hidle => exact (lived_of_run hu).traced.launching spec hspec

/-- A session that is closed is not started again. -/
theorem closed_of_step {n : Nat} {context : Context} {state : SessionState}
    {result : Option SessionResult} (h : Step w (.began n (.start context) state result) w')
    (hclosed : w.session.observe.state = .closed) :
    result = some (.error .closed) ∧ w'.session = w.session.observe ∧
      w'.launching = w.launching := by
  generalize hevent : SessionEvent.began n (.start context) state result = e at h
  cases h with
  | begin what =>
    obtain ⟨-, rfl, -, rfl⟩ := SessionEvent.began.inj hevent
    rw [Session.begin_start_of_closed context hclosed]
    exact ⟨rfl, rfl, rfl⟩
  | @read e c c' hclient hread hreading =>
    subst hreading
    cases hr : c.reading <;> simp [hr, SessionEvent.ofReading] at hevent
  | _ => simp at hevent

/-- In every run of callers with one session, in which calls are made, go on and are given up, the
launcher comes to something or fails, the server does what it likes and time passes, in any order,
callers may rely on the life of the session. -/
theorem orderly_of_run (h : Run Step (create key checkout options) t w) :
    Orderly key checkout options t w := by
  obtain ⟨hphased, htallied, -⟩ := lived_of_run h
  refine ⟨?_, ?_, ?_, ?_, ?_, ?_, ?_, ?_⟩
  · rintro before after u - - hafter
    exact rank_le_of_run hafter
  · rw [htallied.starts]
    exact Bool.toNat_le _
  · have hlaunches := htallied.launches
    have := Bool.toNat_le w.session.handshake.isBegun
    omega
  · rintro before spec after rfl
    exact launch_of_run h
  · intro hstate
    obtain ⟨halive, hover⟩ := hphased.alive_of_initializing hstate
    rw [htallied.starts, htallied.ends, Handshake.isBegun, halive, hover]
    exact ⟨rfl, rfl, rfl⟩
  · rintro ⟨e, he, hends⟩
    refine hphased.settled ?_
    have hpos := List.countP_pos_iff.mpr ⟨e, he, hends⟩
    rw [htallied.ends] at hpos
    exact Bool.toNat_eq_one.mp (Nat.le_antisymm (Bool.toNat_le _) hpos)
  · rintro before e after a rfl he
    exact ready_of_run h he
  · intro n context state result v hstep hclosed
    exact closed_of_step hstep hclosed

/-- A session runs when its server has answered. -/
theorem orderly_running : ∃ t w,
    Run Step (create default ⟨"/a"⟩ default) t w ∧ w.session.state = .running ∧
      Orderly default ⟨"/a"⟩ default t w := by
  have began := Run.nil.snoc (Step.begin (w := create default ⟨"/a"⟩ default) (.start default))
  have launching := began.snoc (Step.launch rfl rfl)
  have asked := launching.snoc (Step.launched (.ok ()) rfl rfl)
  have written := asked.snoc (Step.shake rfl)
  -- The bytes of an answer that has the number 1, and nothing else.
  have served := written.snoc (Step.serve
    [67, 111, 110, 116, 101, 110, 116, 45, 76, 101, 110, 103, 116, 104, 58, 32, 56, 13, 10, 13, 10,
      123, 34, 105, 100, 34, 58, 49, 125] true false rfl)
  obtain ⟨t, w, c, served, hhandshake, hstate, hclient, hpending, hanswers, hread, hmessage, hok⟩ :
      ∃ t w c, Run Step (create default ⟨"/a"⟩ default) t w ∧
        w.session.handshake = .asking (.awaiting 1 "initialize" none none) ∧
        w.session.state = .initializing ∧ w.session.client = some c ∧ c.pending = [1] ∧
        c.answers = [] ∧ c.readerTurn.isSome = true ∧
        c.reading.message?.bind Client.answered? = some 1 ∧
        (c.reading.message?.all fun m ↦ (m.field? "error").isNone) = true :=
    ⟨_, _, _, served, rfl, rfl, rfl, rfl, rfl, by decide +kernel, by decide +kernel,
      by decide +kernel⟩
  obtain ⟨c', hread⟩ := Option.isSome_iff_exists.mp hread
  obtain ⟨m, hm, hanswered⟩ := Option.bind_eq_some_iff.mp hmessage
  have hreading : c.reading = .message m := Client.Reading.message?_eq_some.mp hm
  have heard := served.snoc (Step.read hclient hread rfl)
  have hlookup : c'.answers.lookup 1 = some m :=
    Client.lookup_of_readerTurn hread hreading hanswered (by simp [hpending]) (by simp [hanswers])
  have herror : m.field? "error" = none := by simpa [hm] using hok
  have hturn : (w.session.withClient c').handshakeTurn w.now = .finished ()
      (((w.session.withClient c').withClient (ServerCall.forget c' 1)).handshakeAnswered
        (.ok ((m.field? "result").getD .null))) := by
    simp only [Session.handshakeTurn, Session.withClient, hhandshake, ServerCall.turn, hlookup,
      ServerCall.outcome, herror]
  have running := heard.snoc (Step.shaken hturn)
  refine ⟨_, _, running, ?_, orderly_of_run running⟩
  simp only [Session.handshakeAnswered, Session.withClient, hstate, if_true]

end SessionWorld

end CodeNav
