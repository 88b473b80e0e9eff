import CodeNav.Proofs.Server.Sessions

/-!
# The life of a session

A session only moves forward, and has one handshake at most. While it is initializing, the handshake
is under way, whoever still waits for it; when the handshake is over, the session runs or is closed,
and it runs only after the server has answered well.

What a step can do to a session is said once, by `SessionWorld.Effect`. That a session never goes back
follows from it, and so does each of the three invariants.

## Main definitions

* `SessionWorld.Effect`: what the steps do to the session and its handshake
* `SessionWorld.Phased`: how far the session and its handshake are
* `SessionWorld.Tallied`: how often a handshake was begun, called the launcher and was over
* `SessionWorld.Traced`: what has led to what, above all an answer of the server to a session that runs
* `SessionWorld.Lived`: the invariants together

## Main statements

* `SessionWorld.Step.effect`: every step has one of the effects
* `SessionWorld.rank_le_of_run`: a session never goes back
* `SessionWorld.lived_of_run`: every run keeps the invariants
-/

namespace CodeNav

/-- A handshake that is under way is not over. -/
theorem Handshake.not_isOver_of_isAlive {h : Handshake} (halive : h.isAlive = true) :
    h.isOver = false := by
  cases h with
  | ended r => cases halive
  | _ => rfl

theorem SessionEvent.starts_began {n : Nat} {what : SessionCall} {state : SessionState}
    {r : Option SessionResult} : (SessionEvent.began n what state r).starts = true ↔
      ∃ context, what = .start context ∧ state = .created := by
  cases what <;> cases state <;> simp [SessionEvent.starts]

namespace SessionWorld

variable {w w' : SessionWorld} {t : List SessionEvent} {e : SessionEvent} {key : RepositoryKey}
  {checkout : Path} {options : SessionOptions} {s s' : Session} {c c' : Client}

/-! ### What the steps do -/

/-- What the steps do to the session and its handshake. -/
inductive Effect (w : SessionWorld) : SessionEvent → SessionWorld → Prop
  | beside {e : SessionEvent} {s : Session} (calls : List SessionEntry) (now : Nat)
      (hs : w.session.Beside s) (hstarts : e.starts = false) (hlaunches : e.launches = false)
      (hends : e.ends = false) :
      Effect w e { w with session := s, calls := calls, now := now }
  | start (n : Nat) (context : Context) (calls : List SessionEntry)
      (hcreated : w.session.state = .created) :
      Effect w (.began n (.start context) .created none)
        { w with
          session :=
            { w.session with
              state := .initializing
              handshake := .launching
                (LaunchSpec.of context w.session.options.server w.session.options.usualCommand
                  w.session.checkout) }
          calls := calls }
  | launch {spec : LaunchSpec} (hspec : w.session.handshake = .launching spec)
      (hidle : w.launching = none) : Effect w (.launch spec) { w with launching := some spec }
  /-- The server could not be started. -/
  | fail {spec : LaunchSpec} (e : SessionError) (hspec : w.session.handshake = .launching spec)
      (hlaunching : w.launching = some spec) :
      Effect w (.launched (.ended (.error e)))
        { w with session := w.session.handshakeFailed e, launching := none }
  /-- The server was started, and is asked to initialize by a new client. -/
  | ask {spec : LaunchSpec} {call : ServerCall} {c : Client}
      (hspec : w.session.handshake = .launching spec) (hlaunching : w.launching = some spec)
      (hmethod : call.method = "initialize") (hanswers : c.answers = []) :
      Effect w (.launched (.asking call))
        { w with
          session := { w.session.withClient c with handshake := .asking call }
          launching := none }
  | write {call call' : ServerCall} {c c' : Client} (hcall : w.session.handshake = .asking call)
      (hclient : w.session.client = some c) (hc : c.Alike c') (hid : call'.id = call.id) :
      Effect w (.shook (.asking call'))
        { w with session := { w.session.withClient c' with handshake := .asking call' } }
  /-- The server has answered, and the session was not closed in between. -/
  | run {call : ServerCall} {c c' : Client} {now : Nat} {answer : Json}
      (hcall : w.session.handshake = .asking call) (hclient : w.session.client = some c)
      (hsub : c'.answers ⊆ c.answers) (hends : ServerCall.Ends now c call (.ok answer))
      (hstate : w.session.state = .initializing) :
      Effect w (.shook (.ended (.ok ())))
        { w with
          session :=
            { w.session.withClient c' with state := .running, handshake := .ended (.ok ()) } }
  /-- The handshake has come to nothing: the session is closed, or it has left its initialization
  already. -/
  | refuse {call : ServerCall} {c c' : Client} {state : SessionState}
      (r : Except SessionError Unit) (hcall : w.session.handshake = .asking call)
      (hclient : w.session.client = some c) (hsub : c'.answers ⊆ c.answers)
      (hstate : state = .closed ∨ w.session.state ≠ .initializing ∧ state = w.session.state) :
      Effect w (.shook (.ended r))
        { w with
          session := { w.session.withClient c' with state := state, handshake := .ended r } }
  | hear {c c' : Client} (m : Json) (hclient : w.session.client = some c) (hc : c.Alike c') :
      Effect w (.heard m) { w with session := w.session.withClient (c'.handle m) }

/-- Every step has one of the effects. -/
theorem Step.effect (h : Step w e w') : Effect w e w' := by
  cases h with
  | begin what =>
    by_cases hstart : ∃ context, what = .start context ∧ w.session.state = .created
    · obtain ⟨context, rfl, hcreated⟩ := hstart
      rw [Session.begin_start context hcreated, hcreated]
      exact .start _ context _ hcreated
    · refine .beside _ w.now (w.session.beside_begin ?_) ?_ rfl rfl
      · exact fun context hwhat hcreated ↦ hstart ⟨context, hwhat, hcreated⟩
      · exact Bool.eq_false_iff.mpr (mt SessionEvent.starts_began.mp hstart)
  | @turn n what phase phase' s fs hn hturn =>
    have hbeside := (w.session.leads_turn fs w.now phase).moved hturn
    exact .beside _ w.now hbeside rfl rfl rfl
  | @finish n what phase r s fs hn hturn =>
    have hbeside := (w.session.leads_turn fs w.now phase).finished hturn
    exact .beside _ w.now hbeside rfl rfl rfl
  | drop hn => exact .beside _ w.now (w.session.beside_drop _) rfl rfl rfl
  | observe => exact .beside w.calls w.now w.session.beside_observe rfl rfl rfl
  | launch hspec hidle => exact .launch hspec hidle
  | launched started hspec hlaunching =>
    rcases w.session.launched_eq started with ⟨e, heq⟩ | ⟨call, c, heq, hmethod, hanswers⟩
    · rw [heq]
      exact .fail e hspec hlaunching
    · rw [heq]
      exact .ask hspec hlaunching hmethod hanswers
  | shake hturn =>
    obtain ⟨call, call', c, c', hcall, hclient, hc, hid, rfl⟩ :=
      Session.handshakeTurn_eq_moved hturn
    exact .write hcall hclient hc hid
  | shaken hturn =>
    obtain ⟨call, c, c', r, hcall, hclient, hends, hsub, rfl⟩ :=
      Session.handshakeTurn_eq_finished hturn
    cases r with
    | error e => exact .refuse (.error e) hcall hclient hsub (Or.inl rfl)
    | ok answer =>
      simp only [Session.handshakeAnswered]
      split
      · rename_i hstate
        exact .run hcall hclient hsub hends hstate
      · rename_i hstate
        exact .refuse (.error .closed) hcall hclient hsub (Or.inr ⟨hstate, rfl⟩)
  | @read e c c' hclient hread he =>
    obtain ⟨-, c₀, hc, rfl⟩ := Client.readerTurn_eq_some hread
    subst he
    cases c.reading with
    | nothing => exact .beside w.calls w.now (Session.beside_alike hclient hc) rfl rfl rfl
    | message m => exact .hear m hclient hc
    | ended =>
      have hsub : c₀.close.answers ⊆ c.answers := by
        rw [← hc.answers]
        exact List.Subset.refl _
      exact .beside w.calls w.now (Session.beside_withClient hclient hsub) rfl rfl rfl
  | serve bytes accepts ended hclient =>
    exact .beside w.calls w.now (Session.beside_alike hclient (Client.alike_wire _ _)) rfl rfl rfl
  | pass d => exact .beside w.calls _ (Session.beside_refl _) rfl rfl rfl

/-! ### The session moves forward -/

theorem rank_le_closed (state : SessionState) : state.rank ≤ SessionState.closed.rank := by
  cases state <;> decide

/-- No step takes a session back. -/
theorem rank_le_of_step (h : Step w e w') : w.session.state.rank ≤ w'.session.state.rank := by
  cases h.effect with
  | beside calls now hs =>
    rcases hs.state with heq | hclosed
    · exact Nat.le_of_eq (congrArg SessionState.rank heq.symm)
    · exact hclosed ▸ rank_le_closed _
  | start n context calls hcreated =>
    rw [hcreated]
    exact Nat.zero_le _
  | fail => exact rank_le_closed _
  | run hcall hclient hsub hends hstate =>
    rw [hstate]
    exact show SessionState.initializing.rank ≤ SessionState.running.rank by decide
  | refuse r hcall hclient hsub hstate =>
    rcases hstate with rfl | ⟨-, rfl⟩
    · exact rank_le_closed _
    · exact Nat.le_refl _
  | _ => exact Nat.le_refl _

/-- A session never goes back. -/
theorem rank_le_of_run (h : Run Step w t w') : w.session.state.rank ≤ w'.session.state.rank := by
  induction h with
  | nil => exact Nat.le_refl _
  | snoc _ hstep ih => exact Nat.le_trans ih (rank_le_of_step hstep)

/-! ### How far a session is -/

/-- How far the session, its handshake and its client are. -/
structure Phased (w : SessionWorld) : Prop where
  fresh : w.session.handshake.isBegun = false →
    w.session.client = none ∧ (w.session.state = .created ∨ w.session.state = .closed)
  created : w.session.state = .created → w.session.handshake.isBegun = false
  alive : w.session.handshake.isAlive = true →
    w.session.state = .initializing ∨ w.session.state = .closed
  settled : w.session.handshake.isOver = true →
    w.session.state = .running ∨ w.session.state = .closed
  launching : ∀ spec, w.session.handshake = .launching spec → w.session.client = none
  idle : (∀ spec, w.session.handshake ≠ .launching spec) → w.launching = none

namespace Phased

theorem create : Phased (create key checkout options) where
  fresh _ := ⟨rfl, Or.inl rfl⟩
  created _ := rfl
  alive := nofun
  settled := nofun
  launching := nofun
  idle _ := rfl

/-- Who uses a session beside its handshake may close it, but does not take it further. -/
theorem beside (h : w.Phased) (hs : w.session.Beside s) (calls : List SessionEntry) (now : Nat) :
    Phased { w with session := s, calls := calls, now := now } := by
  have hstate : ∀ {state : SessionState}, w.session.state = state ∨ w.session.state = .closed →
      s.state = state ∨ s.state = .closed := by
    intro state hstate
    rcases hs.state with heq | hclosed
    · rwa [heq]
    · exact Or.inr hclosed
  refine ⟨?_, ?_, ?_, ?_, ?_, ?_⟩
  · rw [hs.handshake]
    intro hfresh
    obtain ⟨hclient, hcreated⟩ := h.fresh hfresh
    exact ⟨hs.client_eq_none hclient, hstate hcreated⟩
  · rw [hs.handshake]
    intro (hcreated : s.state = .created)
    exact h.created ((hs.state_eq (by simp [hcreated])).trans hcreated)
  · rw [hs.handshake]
    exact fun halive ↦ hstate (h.alive halive)
  · rw [hs.handshake]
    exact fun hover ↦ hstate (h.settled hover)
  · rw [hs.handshake]
    exact fun spec hspec ↦ hs.client_eq_none (h.launching spec hspec)
  · rw [hs.handshake]
    exact h.idle

/-- The handshake of a session that is initializing is under way. -/
theorem alive_of_initializing (h : w.Phased) (hstate : w.session.state = .initializing) :
    w.session.handshake.isAlive = true ∧ w.session.handshake.isOver = false := by
  have hover : w.session.handshake.isOver = false := by
    by_contra hover
    rcases h.settled (by simpa using hover) with hrunning | hclosed
    · simp [hstate] at hrunning
    · simp [hstate] at hclosed
  refine ⟨?_, hover⟩
  by_contra halive
  have hfresh : w.session.handshake.isBegun = false := by
    simpa [Handshake.isBegun, hover] using halive
  rcases (h.fresh hfresh).2 with hcreated | hclosed
  · simp [hstate] at hcreated
  · simp [hstate] at hclosed

/-- Every step keeps the phases in order. -/
theorem step (h : w.Phased) (hstep : Effect w e w') : w'.Phased := by
  cases hstep with
  | beside calls now hs => exact h.beside hs calls now
  | start n context calls hcreated =>
    obtain ⟨hclient, -⟩ := h.fresh (h.created hcreated)
    exact ⟨nofun, nofun, fun _ ↦ Or.inl rfl, nofun, fun _ _ ↦ hclient,
      fun hne ↦ absurd rfl (hne _)⟩
  | launch hspec hidle =>
    exact ⟨h.fresh, h.created, h.alive, h.settled, h.launching, fun hne ↦ absurd hspec (hne _)⟩
  | fail e hspec hlaunching =>
    exact ⟨nofun, nofun, nofun, fun _ ↦ Or.inr rfl, nofun, fun _ ↦ rfl⟩
  | @ask spec call c hspec hlaunching hmethod hanswers =>
    have halive := h.alive (by rw [hspec]; rfl)
    refine ⟨nofun, ?_, fun _ ↦ halive, nofun, nofun, fun _ ↦ rfl⟩
    intro (hcreated : w.session.state = .created)
    simp [hcreated] at halive
  | write hcall hclient hc hid =>
    have halive := h.alive (by rw [hcall]; rfl)
    refine ⟨nofun, ?_, fun _ ↦ halive, nofun, nofun, fun _ ↦ h.idle (by simp [hcall])⟩
    intro (hcreated : w.session.state = .created)
    simp [hcreated] at halive
  | run hcall =>
    exact ⟨nofun, nofun, nofun, fun _ ↦ Or.inl rfl, nofun, fun _ ↦ h.idle (by simp [hcall])⟩
  | @refuse call c c' state r hcall hclient hsub hstate =>
    -- A session that has left its initialization while its handshake was under way is closed.
    have hclosed : state = .closed := by
      rcases hstate with hclosed | ⟨hne, rfl⟩
      · exact hclosed
      · exact (h.alive (by rw [hcall]; rfl)).resolve_left hne
    subst hclosed
    exact ⟨nofun, nofun, nofun, fun _ ↦ Or.inr rfl, nofun, fun _ ↦ h.idle (by simp [hcall])⟩
  | hear m hclient hc =>
    refine ⟨fun hfresh ↦ ?_, h.created, h.alive, h.settled, fun spec hspec ↦ ?_, h.idle⟩
    · exact absurd ((h.fresh hfresh).1.symm.trans hclient) (by simp)
    · exact absurd ((h.launching spec hspec).symm.trans hclient) (by simp)

end Phased

/-! ### How often something has happened -/

/-- A handshake was begun, called the launcher and was over as often as the handshake of the session
tells. -/
structure Tallied (t : List SessionEvent) (w : SessionWorld) : Prop where
  starts : t.countP SessionEvent.starts = w.session.handshake.isBegun.toNat
  launches : t.countP SessionEvent.launches + (w.session.handshake.hasToLaunch w.launching).toNat =
    w.session.handshake.isBegun.toNat
  ends : t.countP SessionEvent.ends = w.session.handshake.isOver.toNat

namespace Tallied

theorem create : Tallied [] (create key checkout options) := ⟨rfl, rfl, rfl⟩

/-- A handshake that has called the launcher goes on, or is over. -/
theorem goOn (h : Tallied t w) (halive : w.session.handshake.isAlive = true)
    (hcalled : w.session.handshake.hasToLaunch w.launching = false)
    (hbegun : w'.session.handshake.isBegun = true)
    (hcalled' : w'.session.handshake.hasToLaunch w'.launching = false)
    (hstarts : e.starts = false) (hlaunches : e.launches = false)
    (hends : e.ends = w'.session.handshake.isOver) : Tallied (t ++ [e]) w' := by
  have hbegun₀ : w.session.handshake.isBegun = true := Bool.or_eq_true_iff.mpr (Or.inl halive)
  have hover := Handshake.not_isOver_of_isAlive halive
  refine ⟨?_, ?_, ?_⟩
  · rw [List.countP_append, h.starts, hbegun₀, hbegun]
    simp [hstarts]
  · have hlaunched := h.launches
    rw [hbegun₀, hcalled] at hlaunched
    rw [List.countP_append, hbegun, hcalled', ← hlaunched]
    simp [hlaunches]
  · rw [List.countP_append, h.ends, hover, List.countP_singleton, hends]
    cases w'.session.handshake.isOver <;> rfl

/-- Every step keeps the tallies. -/
theorem step (h : Tallied t w) (hp : w.Phased) (hstep : Effect w e w') :
    Tallied (t ++ [e]) w' := by
  have hstarts := h.starts
  have hlaunches := h.launches
  have hends := h.ends
  cases hstep with
  | beside calls now hs hs₀ hl₀ he₀ =>
    refine ⟨?_, ?_, ?_⟩
    · rw [hs.handshake, ← hstarts]
      simp [List.countP_append, hs₀]
    · rw [hs.handshake, ← hlaunches]
      simp [List.countP_append, hl₀]
    · rw [hs.handshake, ← hends]
      simp [List.countP_append, he₀]
  | start n context calls hcreated =>
    have hfresh := hp.created hcreated
    have hover : w.session.handshake.isOver = false := (Bool.or_eq_false_iff.mp hfresh).2
    have hidle : w.launching = none := hp.idle fun spec hspec ↦ by
      rw [hspec] at hfresh
      cases hfresh
    rw [hfresh] at hstarts hlaunches
    rw [hover] at hends
    refine ⟨?_, ?_, ?_⟩
    · rw [List.countP_append, hstarts]
      rfl
    · rw [List.countP_append, (Nat.add_eq_zero_iff.mp hlaunches).1, hidle]
      rfl
    · rw [List.countP_append, hends]
      rfl
  | launch hspec hidle =>
    rw [hspec, hidle] at hlaunches
    refine ⟨?_, ?_, ?_⟩
    · rw [List.countP_append, hstarts]
      rfl
    · rw [hspec, List.countP_append]
      exact hlaunches
    · rw [List.countP_append, hends]
      rfl
  | fail e hspec hlaunching =>
    exact h.goOn (by rw [hspec]; rfl) (by rw [hspec, hlaunching]; rfl) rfl rfl rfl rfl rfl
  | ask hspec hlaunching =>
    exact h.goOn (by rw [hspec]; rfl) (by rw [hspec, hlaunching]; rfl) rfl rfl rfl rfl rfl
  | write hcall => exact h.goOn (by rw [hcall]; rfl) (by rw [hcall]; rfl) rfl rfl rfl rfl rfl
  | run hcall => exact h.goOn (by rw [hcall]; rfl) (by rw [hcall]; rfl) rfl rfl rfl rfl rfl
  | refuse r hcall => exact h.goOn (by rw [hcall]; rfl) (by rw [hcall]; rfl) rfl rfl rfl rfl rfl
  | hear m hclient hc =>
    refine ⟨?_, ?_, ?_⟩
    · rw [List.countP_append, hstarts]
      rfl
    · rw [List.countP_append]
      exact hlaunches
    · rw [List.countP_append, hends]
      rfl

end Tallied

/-! ### What has led to what -/

/-- The server has answered the request of the handshake without an error. -/
def Answered (t : List SessionEvent) : Prop :=
  ∃ first, ∃ call : ServerCall, ∃ between m later,
    t = first ++ .launched (.asking call) :: (between ++ .heard m :: later) ∧
    call.method = "initialize" ∧ Client.answered? m = some (call.id : Int) ∧
    m.field? "error" = none

theorem Answered.concat (h : Answered t) (e : SessionEvent) : Answered (t ++ [e]) := by
  obtain ⟨first, call, between, m, later, rfl, hmethod, hm, herror⟩ := h
  exact ⟨first, call, between, m, later ++ [e], by simp, hmethod, hm, herror⟩

/-- What was read from the server since its client was asked to initialize it: every answer that the
client has, and the number of the request. -/
def Reported (t : List SessionEvent) (s : Session) (c : Client) : Prop :=
  ∃ first, ∃ call : ServerCall, ∃ later, t = first ++ .launched (.asking call) :: later ∧
    call.method = "initialize" ∧
    (∀ a ∈ c.answers, .heard a.2 ∈ later ∧ Client.answered? a.2 = some (a.1 : Int)) ∧
    ∀ call', s.handshake = .asking call' → call'.id = call.id

namespace Reported

theorem concat (h : Reported t s c) (e : SessionEvent)
    (hhandshake : ∀ call', s'.handshake = .asking call' →
      ∃ call, s.handshake = .asking call ∧ call'.id = call.id)
    (hsub : c'.answers ⊆ c.answers) : Reported (t ++ [e]) s' c' := by
  obtain ⟨first, call, later, rfl, hmethod, hanswers, hcall⟩ := h
  refine ⟨first, call, later ++ [e], by simp, hmethod, fun a ha ↦ ?_, fun call' h' ↦ ?_⟩
  · obtain ⟨hheard, hanswered⟩ := hanswers a (hsub ha)
    exact ⟨List.mem_append_left _ hheard, hanswered⟩
  · obtain ⟨call₀, h₀, hid⟩ := hhandshake call' h'
    exact hid.trans (hcall call₀ h₀)

/-- The reader has taken a message, and the client may have a new answer. -/
theorem hear (h : Reported t s c) (hc : c.Alike c') (m : Json)
    (hhandshake : s'.handshake = s.handshake) :
    Reported (t ++ [.heard m]) s' (c'.handle m) := by
  obtain ⟨first, call, later, rfl, hmethod, hanswers, hid⟩ := h
  refine ⟨first, call, later ++ [.heard m], by simp, hmethod, fun a ha ↦ ?_, ?_⟩
  · rcases (c'.handles m).mem_answers ha with ha | ⟨rfl, hm⟩
    · rw [hc.answers] at ha
      obtain ⟨hheard, hm⟩ := hanswers a ha
      exact ⟨List.mem_append_left _ hheard, hm⟩
    · exact ⟨by simp, hm⟩
  · rw [hhandshake]
    exact hid

/-- A handshake that ends well has an answer of the server. -/
theorem answered (h : Reported t s c) {call : ServerCall} {now : Nat} {answer : Json}
    (hcall : s.handshake = .asking call) (hends : ServerCall.Ends now c call (.ok answer)) :
    Answered t := by
  obtain ⟨first, call₀, later, rfl, hmethod, hanswers, hid⟩ := h
  generalize hresult : (Except.ok answer : Except SessionError Json) = result at hends
  cases hends with
  | @answered id method limit deadline m hlookup =>
    have hmem : (id, m) ∈ c.answers := by
      obtain ⟨l₁, l₂, heq, -⟩ := List.lookup_eq_some_iff.mp hlookup
      rw [heq]
      exact List.mem_append_right _ List.mem_cons_self
    obtain ⟨hheard, hm⟩ := hanswers _ hmem
    obtain ⟨between, rest, rfl⟩ := List.append_of_mem hheard
    refine ⟨first, call₀, between, m, rest, rfl, hmethod, ?_, ?_⟩
    · rw [← hid _ hcall]
      exact hm
    · cases he : m.field? "error" with
      | none => rfl
      | some e => simp [ServerCall.outcome, he] at hresult
  | _ => simp at hresult

end Reported

/-- What has led to a launch, to an answer of the client and to a session that runs. -/
structure Traced (checkout : Path) (options : SessionOptions) (t : List SessionEvent)
    (w : SessionWorld) : Prop where
  setup : w.session.checkout = checkout ∧ w.session.options = options
  launching : ∀ spec, w.session.handshake = .launching spec →
    ∃ n context, .began n (.start context) .created none ∈ t ∧
      spec = LaunchSpec.of context options.server options.usualCommand checkout
  reported : ∀ c, w.session.client = some c → Reported t w.session c
  running : w.session.state = .running → Answered t

namespace Traced

theorem create : Traced checkout options [] (create key checkout options) where
  setup := ⟨rfl, rfl⟩
  launching := nofun
  reported := nofun
  running := nofun

/-- Who uses a session beside its handshake does not undo what has led to it. -/
theorem beside (h : Traced checkout options t w) (hs : w.session.Beside s) (e : SessionEvent)
    (calls : List SessionEntry) (now : Nat) :
    Traced checkout options (t ++ [e]) { w with session := s, calls := calls, now := now } := by
  refine ⟨?_, ?_, ?_, ?_⟩
  · rw [hs.checkout, hs.options]
    exact h.setup
  · rw [hs.handshake]
    intro spec hspec
    obtain ⟨n, context, hbegan, hof⟩ := h.launching spec hspec
    exact ⟨n, context, List.mem_append_left _ hbegan, hof⟩
  · intro c' hc'
    obtain ⟨c, hc, hsub⟩ := hs.client c' hc'
    exact (h.reported c hc).concat e (fun call' h' ↦ ⟨call', hs.handshake ▸ h', rfl⟩) hsub
  · intro (hrunning : s.state = .running)
    exact (h.running ((hs.state_eq (by simp [hrunning])).trans hrunning)).concat e

/-- Every step keeps what has led to what. -/
theorem step (h : Traced checkout options t w) (hp : w.Phased) (hstep : Effect w e w') :
    Traced checkout options (t ++ [e]) w' := by
  cases hstep with
  | beside calls now hs => exact h.beside hs _ calls now
  | start n context calls hcreated =>
    obtain ⟨hclient, -⟩ := hp.fresh (hp.created hcreated)
    refine ⟨h.setup, ?_, ?_, nofun⟩
    · intro spec hspec
      obtain rfl := Handshake.launching.inj hspec
      rw [h.setup.1, h.setup.2]
      exact ⟨n, context, by simp, rfl⟩
    · intro c hc
      exact absurd (hclient.symm.trans hc) (by simp)
  | launch hspec hidle =>
    refine ⟨h.setup, ?_, ?_, fun hrunning ↦ (h.running hrunning).concat _⟩
    · intro spec' hspec'
      obtain ⟨n, context, hbegan, hof⟩ := h.launching spec' hspec'
      exact ⟨n, context, List.mem_append_left _ hbegan, hof⟩
    · intro c hc
      exact (h.reported c hc).concat _ (fun call' h' ↦ ⟨call', h', rfl⟩) (List.Subset.refl _)
  | fail e hspec hlaunching =>
    refine ⟨h.setup, nofun, ?_, nofun⟩
    intro c hc
    exact absurd ((hp.launching _ hspec).symm.trans hc) (by simp)
  | @ask spec call c hspec hlaunching hmethod hanswers =>
    refine ⟨h.setup, nofun, ?_, fun hrunning ↦ (h.running hrunning).concat _⟩
    intro c' hc'
    obtain rfl := Option.some.inj hc'
    refine ⟨t, call, [], rfl, hmethod, ?_, ?_⟩
    · rw [hanswers]
      nofun
    · intro call' hcall'
      rw [Handshake.asking.inj hcall']
  | write hcall hclient hc hid =>
    refine ⟨h.setup, nofun, ?_, fun hrunning ↦ (h.running hrunning).concat _⟩
    intro c₁ hc₁
    obtain rfl := Option.some.inj hc₁
    refine (h.reported _ hclient).concat _ (fun call₁ h₁ ↦ ⟨_, hcall, ?_⟩)
      (hc.answers ▸ List.Subset.refl _)
    rw [← Handshake.asking.inj h₁, hid]
  | run hcall hclient hsub hends hstate =>
    refine ⟨h.setup, nofun, ?_, ?_⟩
    · intro c₁ hc₁
      obtain rfl := Option.some.inj hc₁
      exact (h.reported _ hclient).concat _ nofun hsub
    · exact fun _ ↦ ((h.reported _ hclient).answered hcall hends).concat _
  | refuse r hcall hclient hsub hstate =>
    refine ⟨h.setup, nofun, ?_, ?_⟩
    · intro c₁ hc₁
      obtain rfl := Option.some.inj hc₁
      exact (h.reported _ hclient).concat _ nofun hsub
    · intro hrunning
      rcases hstate with rfl | ⟨-, rfl⟩
      · cases hrunning
      · exact (h.running hrunning).concat _
  | hear m hclient hc =>
    refine ⟨h.setup, ?_, ?_, fun hrunning ↦ (h.running hrunning).concat _⟩
    · intro spec hspec
      exact absurd ((hp.launching spec hspec).symm.trans hclient) (by simp)
    · intro c₁ hc₁
      obtain rfl := Option.some.inj hc₁
      exact (h.reported _ hclient).hear hc m rfl

end Traced

/-- The invariant of the life of a session. -/
structure Lived (checkout : Path) (options : SessionOptions) (t : List SessionEvent)
    (w : SessionWorld) : Prop where
  phased : w.Phased
  tallied : Tallied t w
  traced : Traced checkout options t w

/-- Every run keeps the invariant. -/
theorem lived_of_run (h : Run Step (create key checkout options) t w) :
    Lived checkout options t w := by
  refine h.invariant (P := Lived checkout options) ⟨.create, .create, .create⟩ ?_
  intro t u e v _ hu hstep
  exact ⟨hu.phased.step hstep.effect, hu.tallied.step hu.phased hstep.effect,
    hu.traced.step hu.phased hstep.effect⟩

end SessionWorld

end CodeNav
