import CodeNav.Proofs.Server.Lifecycle
import CodeNav.Proofs.Server.Post

/-!
# What lasts in a session

A session keeps its key. Once a look at it would find it closed, because it was closed or because its
server is gone, every later look will, whatever callers, handshake and reader do. Once the launcher was
called for it, the launcher is never called again. Whoever closes a session leaves it closed.

## Main definitions

* `Session.Lasts`: what of a session lasts
* `SessionWorld.Launchable`: the launcher may still be called
* `Session.Closes`: a call that is closing the session

## Main statements

* `SessionWorld.lasts_of_run`, `SessionWorld.launchable_of_step`: what lasts along runs
* `Session.closes_begin`, `Session.closes_turn`, `Session.closed_of_turn`: a session is closed when the
  call that closes it is over
-/

namespace CodeNav

namespace Session

variable {s s' s'' : Session} {c c' : Client} {now : Nat} {fs : FileSystem}
  {phase phase' : SessionPhase}

/-- What of a session lasts: its key, and that a look at it finds it closed. -/
structure Lasts (s s' : Session) : Prop where
  key : s'.key = s.key
  closed : s.observe.state = .closed → s'.observe.state = .closed

theorem lasts_refl (s : Session) : Lasts s s := ⟨rfl, id⟩

theorem Lasts.trans (h : Lasts s s') (h' : Lasts s' s'') : Lasts s s'' :=
  ⟨h'.key.trans h.key, h'.closed ∘ h.closed⟩

/-- A second look finds what the first one has found. -/
theorem observe_observe (s : Session) : s.observe.observe = s.observe := by
  simp only [observe]
  split <;> simp_all

/-- When a look at a session finds it closed. -/
theorem state_observe_eq_closed : s.observe.state = .closed ↔
    s.state = .closed ∨ s.state = .running ∧ s.client.any (·.closed) = true := by
  simp only [observe]
  split
  · rename_i h
    exact ⟨fun _ ↦ Or.inr h, fun _ ↦ rfl⟩
  · rename_i h
    exact ⟨Or.inl, fun h' ↦ h'.resolve_right h⟩

theorem lasts_of_closed (hkey : s'.key = s.key) (hstate : s'.state = .closed) : Lasts s s' :=
  ⟨hkey, fun _ ↦ state_observe_eq_closed.mpr (Or.inl hstate)⟩

/-- Only other things have changed. -/
theorem lasts_of_same (hkey : s'.key = s.key) (hstate : s'.state = s.state)
    (hclient : s'.client = s.client) : Lasts s s' := by
  refine ⟨hkey, fun h ↦ ?_⟩
  rw [state_observe_eq_closed, hstate, hclient]
  exact state_observe_eq_closed.mp h

/-- Somebody has used a client that is open or closed as before. -/
theorem lasts_withClient (hs : s.client = some c) (hc : c'.closed = c.closed) :
    Lasts s (s.withClient c') := by
  refine ⟨rfl, fun h ↦ state_observe_eq_closed.mpr ((state_observe_eq_closed.mp h).imp_right ?_)⟩
  rintro ⟨hstate, hclosed⟩
  refine ⟨hstate, ?_⟩
  rw [hs] at hclosed
  exact hc.trans hclosed

theorem lasts_observe (s : Session) : Lasts s s.observe := by
  simp only [observe]
  split
  · exact lasts_of_closed rfl rfl
  · exact s.lasts_refl

/-- A session that a look finds closed is not used by those who want it to run. -/
theorem lasts_of_running (h : s.observe.runningClient = .ok c) (hkey : s'.key = s.key) : Lasts s s' :=
  ⟨hkey, fun hclosed ↦ absurd ((runningClient_eq_ok h).1.symm.trans hclosed) nofun⟩

theorem Begins.lasts {what : SessionCall} {b : SessionPhase ⊕ SessionResult} (h : Begins s what b s') :
    Lasts s s' := by
  have hkey : s.observe.key = s.key := s.lasts_observe.key
  cases h with
  | start context hcreated =>
    refine ⟨rfl, fun h ↦ ?_⟩
    rcases state_observe_eq_closed.mp h with h | ⟨h, -⟩ <;> cases hcreated.symm.trans h
  | wait => exact s.lasts_refl
  | atOnce => exact s.lasts_observe
  | tell hrunning | ask _ _ _ hrunning | shut hrunning => exact lasts_of_running hrunning hkey
  | enter hrunning =>
    obtain ⟨documents, heq⟩ := s.observe.exists_enterSlot_eq _
    rw [heq]
    exact lasts_of_running hrunning hkey
  | exit what s₀ hs₀ =>
    have hexit : Lasts s₀ s₀.beginExit.2 := by
      rcases s₀.beginExit_eq with heq | ⟨c, c', note, -, -, heq⟩ <;> rw [heq] <;>
        exact lasts_of_closed rfl rfl
    rcases hs₀ with rfl | rfl
    · exact hexit
    · exact s.lasts_observe.trans hexit

theorem Goes.lasts (h : Goes now s phase phase' s') : Lasts s s' := by
  cases h with
  | send _ hclient _ _ hc' =>
    rw [hc']
    exact lasts_withClient hclient rfl
  | await _ hclient hturn | awaitShutdown hclient hturn =>
    exact lasts_withClient hclient (ServerCall.turn_eq_moved hturn).1.closed
  | exit => exact lasts_of_closed rfl rfl

theorem Ends.lasts {r : SessionResult} (h : Ends now s phase r s') : Lasts s s' := by
  cases h with
  | shaken => exact s.lasts_refl
  | settled => exact s.lasts_observe
  | known | refused => exact lasts_of_same rfl rfl rfl
  | told hclient hturn | exited hclient hturn =>
    exact lasts_withClient hclient (Note.alike_turn hturn).closed
  | sent hclient hturn | failed hclient hturn =>
    exact (lasts_withClient hclient (Note.alike_turn hturn).closed).trans
      (lasts_of_same rfl rfl rfl)
  | answered _ hclient hturn =>
    obtain ⟨-, c₀, hc₀, rfl⟩ := ServerCall.turn_eq_finished hturn
    exact lasts_withClient hclient hc₀.closed
  | shut => exact lasts_of_closed rfl rfl

theorem lasts_drop (phase : SessionPhase) (s : Session) : Lasts s (drop phase s) := by
  have hclient : ∀ f : Client → Client, (∀ c, (f c).closed = c.closed) →
      Lasts s { s with client := s.client.map f } := by
    intro f hf
    cases hs : s.client with
    | none => exact lasts_of_same rfl rfl hs.symm
    | some c => exact lasts_withClient hs (hf c)
  have hcall : ∀ (call : ServerCall) (c : Client), (call.drop c).closed = c.closed := by
    intro call c
    obtain ⟨c₀, hc₀, heq⟩ := call.drop_eq c
    rw [heq]
    exact hc₀.closed
  cases phase with
  | awaitingHandshake | awaitingReady => exact s.lasts_refl
  | telling note | exiting note => exact hclient note.drop fun _ ↦ rfl
  | queued => exact lasts_of_same rfl rfl rfl
  | sending _ _ _ note =>
    exact (hclient note.drop fun _ ↦ rfl).trans (lasts_of_same rfl rfl rfl)
  | asking _ call | closing call => exact hclient call.drop (hcall call)

/-! ### Closing -/

/-- A call that is closing the session: it waits for the server to shut down, or the session is closed
and its server is being told to exit. -/
def Closes (s : Session) (phase : SessionPhase) : Prop :=
  (∃ call, phase = .closing call) ∨ (∃ note, phase = .exiting note) ∧ s.state = .closed

theorem Closes.of_state {s s' : Session} (h : s.Closes phase) (hstate : s.state = .closed → s'.state = .closed) :
    s'.Closes phase :=
  h.imp_right (And.imp_right hstate)

/-- A session is being closed once closing it has begun, or is closed at once. -/
theorem closes_begin (s : Session) :
    (∀ phase, (begin .close s).1 = .inl phase → (begin .close s).2.Closes phase) ∧
      (∀ r, (begin .close s).1 = .inr r → (begin .close s).2.state = .closed) := by
  have hexit : ∀ s : Session, (∀ phase, s.beginExit.1 = .inl phase → s.beginExit.2.Closes phase) ∧
      (∀ r, s.beginExit.1 = .inr r → s.beginExit.2.state = .closed) := by
    intro s
    rcases s.beginExit_eq with heq | ⟨c, c', note, -, -, heq⟩ <;> rw [heq]
    · exact ⟨fun _ hphase ↦ (by cases hphase), fun _ _ ↦ rfl⟩
    · exact ⟨fun phase hphase ↦ Or.inr ⟨⟨note, (Sum.inl.inj hphase).symm⟩, rfl⟩,
        fun _ hresult ↦ (by cases hresult)⟩
  simp only [begin]
  split
  · split
    · exact hexit s.observe
    · split
      · exact hexit s.observe
      · exact ⟨fun phase hphase ↦ Or.inl ⟨_, (Sum.inl.inj hphase).symm⟩,
          fun _ hresult ↦ (by cases hresult)⟩
  · exact hexit s.observe

theorem closes_turn (h : s.Closes phase) (hturn : turn fs now phase s = .moved phase' s') :
    s'.Closes phase' := by
  rcases h with ⟨call, rfl⟩ | ⟨⟨note, rfl⟩, hstate⟩
  · cases goes_of_turn hturn with
    | awaitShutdown => exact Or.inl ⟨_, rfl⟩
    | exit => exact Or.inr ⟨⟨_, rfl⟩, rfl⟩
  · cases goes_of_turn hturn

/-- A session is closed when the call that closes it is over. -/
theorem closed_of_turn {r : SessionResult} (h : s.Closes phase)
    (hturn : turn fs now phase s = .finished r s') : s'.state = .closed := by
  rcases h with ⟨call, rfl⟩ | ⟨⟨note, rfl⟩, hstate⟩
  · cases ends_of_turn hturn with
    | shut => rfl
  · cases ends_of_turn hturn with
    | exited => exact hstate

end Session

namespace SessionWorld

variable {w w' : SessionWorld} {e : SessionEvent} {t t' : List SessionEvent} {key : RepositoryKey}
  {checkout : Path} {options : SessionOptions}

/-- A session that is getting ready does not run, so that only closing it closes it. -/
theorem Phased.closed_of_alive (h : w.Phased) (halive : w.session.handshake.isAlive = true)
    (hclosed : w.session.observe.state = .closed) : w.session.state = .closed := by
  refine (Session.state_observe_eq_closed.mp hclosed).resolve_right fun ⟨hrunning, _⟩ ↦ ?_
  rcases h.alive halive with hstate | hstate <;> cases hrunning.symm.trans hstate

/-- What lasts, lasts with every step. -/
theorem lasts_of_step (hphased : w.Phased) (h : Step w e w') : w.session.Lasts w'.session := by
  cases h with
  | begin what => exact (w.session.begins_begin what).lasts
  | turn fs hn hturn => exact (Session.goes_of_turn hturn).lasts
  | finish fs hn hturn => exact (Session.ends_of_turn hturn).lasts
  | @drop n what phase hn => exact Session.lasts_drop phase _
  | observe => exact w.session.lasts_observe
  | launched started hspec =>
    rcases w.session.launched_cases started with ⟨e, heq⟩ | ⟨call, c, n, heq, -⟩
    · simp only [heq]
      exact Session.lasts_of_closed rfl rfl
    · simp only [heq]
      refine ⟨rfl, fun h ↦ Session.state_observe_eq_closed.mpr (Or.inl ?_)⟩
      exact hphased.closed_of_alive (by rw [hspec]; rfl) h
  | shake hturn =>
    obtain ⟨call, call', c, c', hcall, hclient, hc, -, rfl⟩ := Session.handshakeTurn_eq_moved hturn
    exact (Session.lasts_withClient hclient hc.closed).trans (Session.lasts_of_same rfl rfl rfl)
  | shaken hturn =>
    obtain ⟨call, c, c', r, hcall, -, -, -, rfl⟩ := Session.handshakeTurn_eq_finished hturn
    cases r with
    | error e => exact Session.lasts_of_closed rfl rfl
    | ok answer =>
      refine ⟨?_, fun h ↦ Session.state_observe_eq_closed.mpr (Or.inl ?_)⟩
      · simp only [Session.handshakeAnswered]
        split <;> rfl
      · have hclosed := hphased.closed_of_alive (by rw [hcall]; rfl) h
        simp [Session.handshakeAnswered, Session.withClient, hclosed]
  | read hclient hread =>
    refine ⟨rfl, fun h ↦ Session.state_observe_eq_closed.mpr (Or.inl ?_)⟩
    refine (Session.state_observe_eq_closed.mp h).resolve_right fun hdead ↦ ?_
    have hclosed := hdead.2
    rw [hclient] at hclosed
    exact absurd ((Client.readerTurn_eq_some hread).1.symm.trans hclosed) Bool.false_ne_true
  | serve bytes accepts ended hclient => exact Session.lasts_withClient hclient rfl
  | launch | pass => exact w.session.lasts_refl

/-- A session that is closed stays closed. -/
theorem closed_of_run (h : Run Step w t w') (hclosed : w.session.state = .closed) :
    w'.session.state = .closed := by
  have hrank := rank_le_of_run h
  rw [hclosed] at hrank
  cases hstate : w'.session.state with
  | closed => rfl
  | created | initializing | running =>
    rw [hstate] at hrank
    exact absurd hrank (by decide)

/-- What lasts, lasts along every run. -/
theorem lasts_of_run (h : Run Step (create key checkout options) t w) (hmore : Run Step w t' w') :
    w.session.Lasts w'.session := by
  refine hmore.invariant (P := fun _ u ↦ w.session.Lasts u.session) w.session.lasts_refl ?_
  intro more u e v hu hlasts hstep
  exact hlasts.trans (lasts_of_step (lived_of_run (h.append hu)).phased hstep)

/-! ### The launcher -/

/-- The launcher may still be called for a session. -/
def Launchable (w : SessionWorld) : Prop :=
  w.session.handshake = .notBegun ∨
    ∃ spec, w.session.handshake = .launching spec ∧ w.launching = none

/-- No step makes the launcher be called once more. -/
theorem launchable_of_step (hphased : w.Phased) (h : Step w e w') (hlaunchable : w'.Launchable) :
    w.Launchable := by
  cases h.effect with
  | beside calls now hs =>
    simpa only [Launchable, hs.handshake] using hlaunchable
  | start n context calls hcreated =>
    have hbegun := hphased.created hcreated
    refine Or.inl ?_
    cases hhandshake : w.session.handshake with
    | notBegun => rfl
    | launching | asking | ended => rw [hhandshake] at hbegun; cases hbegun
  | launch hspec =>
    rcases hlaunchable with h | ⟨spec, -, h⟩
    · cases hspec.symm.trans h
    · cases h
  | fail | ask | write | run | refuse =>
    rcases hlaunchable with h | ⟨spec, h, -⟩ <;> cases h
  | hear => exact hlaunchable

theorem launchable_of_run (h : Run Step (create key checkout options) t w) (hmore : Run Step w t' w')
    (hlaunchable : w'.Launchable) : w.Launchable := by
  induction hmore with
  | nil => exact hlaunchable
  | snoc hu hstep ih =>
    exact ih (launchable_of_step (lived_of_run (h.append hu)).phased hstep hlaunchable)

end SessionWorld

end CodeNav
