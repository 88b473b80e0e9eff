import CodeNav.Proofs.Browser.Handlers
import CodeNav.Proofs.Browser.Service

/-!
# Requests are polite to servers

Whatever requests arrive, and in whatever order their handlers go on, every server is told things in the
right order: it is greeted first, told nothing else but to exit before it has answered, told once that the
handshake is over, and only then told the texts of documents. This needs that the server takes what is
written to it, and that nobody is given up who waits with a message for it.

## Main definitions

* `ServiceWorld.hosting`: the sessions, with the calls that go on for handlers
* `ServiceWorld.Steady`: steps with which no message to one server gets lost

## Main statements

* `ServiceWorld.Steered.step`: a session among others goes through a run of its own callers
* `ServiceWorld.polite_of_run`: servers are told things in the right order, and what is asked of a session
  that does not run is refused
-/

namespace CodeNav

open SessionWorld (regime_steady)

namespace ServiceWorld

variable {v : Service} {n : Nat} {w w' : ServiceWorld} {e : ServiceEvent} {t : List ServiceEvent}

/-- The calls that go on for a handler. -/
def callsOf : Option Handler → List (Nat × SessionPhase)
  | some h => h.phase.calls
  | none => []

/-- The sessions, with the calls that go on for handlers. -/
def hosting (w : ServiceWorld) : Hosting :=
  ⟨w.state.sessions, w.handlers.flatMap callsOf, w.launching, w.now⟩

/-- A step with which no message to the server of a session gets lost. -/
structure Steady (v : Service) (n : Nat) (w : ServiceWorld) (e : ServiceEvent) (w' : ServiceWorld) :
    Prop where
  step : Step v w e w'
  /-- The server goes on taking messages. -/
  accepts : ∀ s s', w.session? n = some s → w'.session? n = some s' → s.post.accepts = true →
    s'.post.accepts = true
  /-- Nobody is given up who waits with a message for the server. -/
  dropped : ∀ k h, e = .dropped k → w.handlers[k]? = some (some h) →
    ∀ phase, (n, phase) ∈ h.phase.calls → phase.draft? = none

/-- A session has gone through a run of callers, and handlers may rely on what they rely on. -/
structure Steered (n : Nat) (w : ServiceWorld) : Prop where
  tracks : ∃ o, Hosting.Becomes SessionWorld.Steady none o ∧ w.hosting.Tracks n o
  sound : ∀ (k : Nat) h, w.handlers[k]? = some (some h) → h.phase.Sound n w.state.sessions

theorem steered_create (root : Path) (options : SessionOptions) (checkouts : Checkouts) :
    (create root options checkouts).Steered n :=
  ⟨⟨none, .unborn, rfl, rfl, rfl⟩, by simp [create]⟩

/-- What a handler relies on stays so while others go on. -/
theorem Steered.frame (h : w.Steered n) {h' : Hosting}
    (hleads : Hosting.Leads SessionWorld.Steady n w.hosting h') {k : Nat} {handler : Handler}
    (hk : w.handlers[k]? = some (some handler)) : handler.phase.Sound n h'.sessions := by
  have hsound := h.sound k handler hk
  obtain ⟨o, hbecomes, htracks⟩ := h.tracks
  obtain ⟨message, phase⟩ := handler
  cases phase with
  | calling request m phase rest =>
    rintro rfl s hs
    have hmem : (m, phase) ∈ w.hosting.phases :=
      List.mem_flatMap.mpr ⟨_, List.mem_of_getElem? hk, List.mem_singleton.mpr rfl⟩
    obtain ⟨o', hgoes, htracks'⟩ := hleads o htracks
    cases hgoes with
    | unborn | born =>
      -- There are no calls on a session that is not there yet.
      have hnone : phase ∈ Hosting.phasesOn m w.hosting.phases :=
        List.mem_filterMap.mpr ⟨_, hmem, by simp⟩
      rw [htracks.phases] at hnone
      cases hnone
    | goesOn hrun =>
      obtain rfl := Option.some.inj (hs.symm.trans htracks'.session)
      exact (hsound rfl _ htracks.session).imp_left (SessionWorld.initializedSent_of_run hrun)
  | synchronizing _ _ e | removing _ e => cases e <;> exact hsound
  | arrived | loading | loaded | inspecting | evicting | watching | locating | saving => exact hsound

/-- A session that is led to somewhere has gone through a longer run. -/
theorem Steered.tracks_of_leads (h : w.Steered n)
    (hleads : Hosting.Leads SessionWorld.Steady n w.hosting w'.hosting) :
    ∃ o, Hosting.Becomes SessionWorld.Steady none o ∧ w'.hosting.Tracks n o := by
  obtain ⟨o, hbecomes, htracks⟩ := h.tracks
  obtain ⟨o', hgoes, htracks'⟩ := hleads o htracks
  exact ⟨o', hbecomes.trans hgoes, htracks'⟩

/-- A session goes on while handlers stay as they are. -/
theorem Steered.of_leads (h : w.Steered n)
    (hleads : Hosting.Leads SessionWorld.Steady n w.hosting w'.hosting)
    (hhandlers : w'.handlers = w.handlers) : w'.Steered n := by
  refine ⟨h.tracks_of_leads hleads, fun k handler hk ↦ ?_⟩
  rw [hhandlers] at hk
  exact h.frame hleads hk

/-- One of the handlers goes on or is over. -/
theorem Steered.set (h : w.Steered n) {k : Nat} {handler : Handler} {after : Option Handler}
    {s : ServiceState} (hk : w.handlers[k]? = some (some handler))
    (hleads : ∀ rest, Hosting.Leads SessionWorld.Steady n
      ⟨w.state.sessions, handler.phase.calls ++ rest, w.launching, w.now⟩
      ⟨s.sessions, callsOf after ++ rest, w.launching, w.now⟩)
    (hsound : ∀ h', after = some h' → h'.phase.Sound n s.sessions) :
    Steered n { w with state := s, handlers := w.handlers.set k after } := by
  obtain ⟨rest, hbefore, hafter⟩ := perm_flatMap_set callsOf hk
  have hgoes : Hosting.Leads SessionWorld.Steady n w.hosting
      (hosting { w with state := s, handlers := w.handlers.set k after }) :=
    (Hosting.leads_perm hbefore).trans ((hleads rest).trans (Hosting.leads_perm (hafter after).symm))
  refine ⟨h.tracks_of_leads hgoes, fun m h' hm ↦ ?_⟩
  rcases (getElem?_set_eq_some hk).mp hm with ⟨-, heq⟩ | ⟨-, hm⟩
  · exact hsound h' heq.symm
  · exact h.frame hgoes hm

/-- The server of a session that has gone through a run takes messages. -/
theorem Steered.accepts (h : w.Steered n) {s : Session} (hs : w.session? n = some s) :
    s.post.accepts = true := by
  obtain ⟨o, hbecomes, htracks⟩ := h.tracks
  cases hbecomes with
  | unborn => exact absurd (hs.symm.trans htracks.session) nofun
  | born hrun =>
    obtain rfl := Option.some.inj (hs.symm.trans htracks.session)
    obtain ⟨waiting, hpost⟩ := (SessionWorld.courteous_of_run _ _ _ hrun).1.post
    exact hpost.accepts

/-- A session among others goes through a run of its own callers. -/
theorem Steered.step (h : w.Steered n) (hstep : Steady v n w e w') : w'.Steered n := by
  obtain ⟨hstep, haccepts, hdropped⟩ := hstep
  cases hstep with
  | arrive message =>
    have hleads : Hosting.Leads SessionWorld.Steady n w.hosting
        (hosting { w with handlers := w.handlers ++ [some (.begin message)] }) := by
      refine Hosting.leads_perm ?_
      simp [callsOf, Handler.begin, HandlerPhase.calls]
    refine ⟨h.tracks_of_leads hleads, fun k handler hk ↦ ?_⟩
    rcases getElem?_concat_eq_some.mp hk with hk | ⟨-, heq⟩
    · exact h.frame hleads hk
    · obtain rfl := Option.some.inj heq
      exact True.intro
  | @turn k handler handler' s strand news hk hturn =>
    obtain ⟨phase, hphase, rfl⟩ := Handler.turn_eq_moved hturn
    have hserves : ∀ rest, HandlerPhase.Serves n rest w.launching w.now
        ⟨w.state.sessions, handler.phase.calls ++ rest, w.launching, w.now⟩ (.moved phase s) :=
      fun _ ↦ hphase ▸ Handler.serves_phaseTurn (h.sound k handler hk)
    refine h.set hk (fun rest ↦ ?_) fun h' heq ↦ ?_
    · cases hserves rest with
      | moved hleads => exact hleads
    · obtain rfl := Option.some.inj heq
      cases hserves [] with
      | moved _ hsound => exact hsound
  | @finish k handler reply s strand news hk hturn =>
    obtain ⟨unaddressed, hphase, -⟩ := Handler.turn_eq_finished hturn
    have hserves : ∀ rest, HandlerPhase.Serves n rest w.launching w.now
        ⟨w.state.sessions, handler.phase.calls ++ rest, w.launching, w.now⟩
        (.finished unaddressed s) :=
      fun _ ↦ hphase ▸ Handler.serves_phaseTurn (h.sound k handler hk)
    refine h.set hk (fun rest ↦ ?_) fun h' heq ↦ (by cases heq)
    cases hserves rest with
    | finished hleads => exact hleads
  | @drop k handler hk =>
    exact h.set hk (fun rest ↦ handler.leads_drop w.state (hdropped k handler rfl hk))
      fun h' heq ↦ (by cases heq)
  | inside hback =>
    refine h.of_leads (Hosting.leads_background regime_steady hback
      (fun _ _ ↦ SessionWorld.mayLaunch_steady) fun _ s s' hs hs' ↦ ?_) rfl
    rw [haccepts s s' hs hs' (h.accepts hs)]
    exact SessionWorld.mayServe_steady
  | change => exact h.of_leads (Hosting.leads_of_all rfl) rfl
  | pass d => exact h.of_leads (Hosting.leads_pass regime_steady d) rfl

/-- In every run of requests with which no message to the server of a session gets lost, this server is
told things in the right order, and what is asked of the session while it does not run is refused without
a word to the server. -/
theorem polite_of_run {root : Path} {options : SessionOptions} {checkouts : Checkouts} {s : Session}
    (h : Run (Steady v n) (create root options checkouts) t w) (hs : w.session? n = some s) :
    s.Polite ∧ s.Gated := by
  have hsteered : w.Steered n := h.invariant (P := fun _ w ↦ w.Steered n)
    (steered_create root options checkouts) fun _ _ _ _ _ hsteered hstep ↦ hsteered.step hstep
  refine ⟨?_, s.gated⟩
  obtain ⟨o, hbecomes, htracks⟩ := hsteered.tracks
  cases hbecomes with
  | unborn => exact absurd (hs.symm.trans htracks.session) nofun
  | born hrun =>
    obtain rfl := Option.some.inj (hs.symm.trans htracks.session)
    exact (SessionWorld.courteous_of_run _ _ _ hrun).1.polite

/-! ### An example -/

/-- A turn that nobody is given up with, and after which the server takes messages. -/
def steadyMove (v : Service) (n : Nat) (w : ServiceWorld) (m : ServiceMove) :
    Option (ServiceEvent × ServiceWorld) :=
  (w.move v m).filter fun x ↦ (x.2.session? n).all (·.post.accepts) && match x.1 with
    | .dropped _ => false
    | _ => true

theorem steady_of_steadyMove {m : ServiceMove} (h : w.steadyMove v n m = some (e, w')) :
    Steady v n w e w' := by
  obtain ⟨hmove, hcheck⟩ := Option.filter_eq_some_iff.mp h
  obtain ⟨haccepts, hkept⟩ := Bool.and_eq_true_iff.mp hcheck
  refine ⟨step_of_move hmove, fun s s' _ hs' _ ↦ ?_, fun k handler he _ _ _ ↦ ?_⟩
  · simpa [hs'] using haccepts
  · subst he
    cases hkept

/-- The message of a page that opens a file of some repository. -/
def openingMessage (path text : String) : PageMessage :=
  ⟨"didOpen", .ofFields [("resource", .string "h"), ("slug", .string "a/b"),
    ("filepath", .string path), ("text", .string text)], none⟩

/-- Two pages open files of a repository at the same time, and its server answers the request with the
number 1. -/
def openingMoves : List ServiceMove :=
  [.arrive (openingMessage "m.c" "int m;"), .arrive (openingMessage "n.c" "int n;"), .go 0, .go 0,
    .go 0, .go 1, .go 1, .go 1, .launch 0, .launched 0, .shake 0,
    .serve 0 [67, 111, 110, 116, 101, 110, 116, 45, 76, 101, 110, 103, 116, 104, 58, 32, 56, 13, 10, 13,
      10, 123, 34, 105, 100, 34, 58, 49, 125],
    .read 0, .shake 0, .go 1, .go 0, .go 0, .go 1, .go 0, .go 1, .go 0, .go 1]

/-- Two pages that open files at the same time leave the server greeted once, and told once that the
handshake is over. -/
theorem polite_opened : ∃ t w s, Run (Steady ⟨⟨⟨"/c"⟩, "", [], none⟩, ⟨⟨"/s"⟩, .usual⟩, 0⟩ 0)
    (create ⟨"/c"⟩ default ⟨⟨[]⟩, .none, .empty⟩) t w ∧ w.session? 0 = some s ∧
      s.letters.length = 5 ∧ s.Polite ∧ s.Gated := by
  obtain ⟨t, w, hrun, hcheck⟩ := exists_run_of_play
    (steadyMove ⟨⟨⟨"/c"⟩, "", [], none⟩, ⟨⟨"/s"⟩, .usual⟩, 0⟩ 0) (fun _ _ _ _ ↦ steady_of_steadyMove)
    (create ⟨"/c"⟩ default ⟨⟨[]⟩, .none, .empty⟩) openingMoves
    (fun _ w ↦ (w.session? 0).any fun s ↦ s.letters.length = 5) (by decide +kernel)
  obtain ⟨s, hs, hletters⟩ := (Option.any_eq_true ..).mp hcheck
  exact ⟨t, w, s, hrun, hs, of_decide_eq_true hletters, polite_of_run hrun hs⟩

end ServiceWorld

end CodeNav
