import CodeNav.Proofs.Server.Lifecycle
import CodeNav.Proofs.Server.Post
import CodeNav.Server.Registry
import Mathlib.Logic.Function.Basic

/-!
# Sessions among others

A program has many sessions, and those who make calls on them make other calls too: handlers of
requests, and whoever takes sessions out and closes them. Seen from one session, all this is a run of
callers with this session alone, so that what is known of such runs is known of every session of a
program.

What happens to all sessions is followed from one session, which is told by its number. Something
*leads* from one state of the sessions to another when it is a run of callers for this session, or makes
it. Runs may be limited to some of the steps, by a *regime* that tells which.

## Main definitions

* `SessionWorld.Regime`: a system of steps that has all steps but some calls that begin or are given up,
  and some changes of the server
* `Hosting`: all sessions, with the calls that are made on them
* `Hosting.Tracks`: a session as callers see it who have it alone
* `Hosting.Leads`: a change of the sessions that is a run for one of them
* `Background`: what goes on in a session by itself

## Main statements

* `Hosting.leads_beginOn`, `leads_turnOn_moved`, `leads_turnOn_finished`, `leads_dropOn`: calls are runs
* `Hosting.leads_get`, `Hosting.leads_background`: so is handing out, and what goes on by itself
-/

namespace CodeNav

/-! ### Systems of steps -/

/-- Whether an event is none of those that a regime may rule out. -/
def SessionEvent.isFree : SessionEvent → Bool
  | began _ (.didOpen _ _) _ _ => false
  | dropped _ => false
  | launch _ => false
  | _ => true

namespace SessionWorld

variable {S : SessionWorld → SessionEvent → SessionWorld → Prop} {u v : SessionWorld} {e : SessionEvent}

/-- A system of steps that has all steps but some calls that begin or are given up, and some changes of
the server. -/
structure Regime (S : SessionWorld → SessionEvent → SessionWorld → Prop) : Prop where
  step : ∀ {u e v}, S u e v → Step u e v
  free : ∀ {u e v}, Step u e v → e.isFree = true →
    (u.session.post.accepts = true → v.session.post.accepts = true) → S u e v

/-- A system in which a call may begin on a session. -/
def MayBegin (S : SessionWorld → SessionEvent → SessionWorld → Prop) (s : Session)
    (what : SessionCall) : Prop :=
  ∀ u v n state r, u.session = s → Step u (.began n what state r) v →
    (u.session.post.accepts = true → v.session.post.accepts = true) → S u (.began n what state r) v

/-- A system in which a call may be given up. -/
def MayDrop (S : SessionWorld → SessionEvent → SessionWorld → Prop) (phase : SessionPhase) : Prop :=
  ∀ u v (n : Nat) what, u.calls[n]? = some ⟨what, some phase⟩ → Step u (.dropped n) v →
    (u.session.post.accepts = true → v.session.post.accepts = true) → S u (.dropped n) v

/-- A system in which the launcher may be called. -/
def MayLaunch (S : SessionWorld → SessionEvent → SessionWorld → Prop) : Prop :=
  ∀ u v spec, Step u (.launch spec) v →
    (u.session.post.accepts = true → v.session.post.accepts = true) → S u (.launch spec) v

/-- A system in which the server may take messages from some step on, or refuse them. -/
def MayServe (S : SessionWorld → SessionEvent → SessionWorld → Prop) (accepts : Bool) : Prop :=
  ∀ u v, Step u .other v → v.session.post.accepts = accepts → S u .other v

/-- Calls that open no document may begin at any time. -/
theorem Regime.mayBegin (hS : Regime S) {s : Session} {what : SessionCall}
    (hopen : ∀ path text, what ≠ .didOpen path text) : MayBegin S s what := by
  intro u v n state r _ hstep haccepts
  refine hS.free hstep ?_ haccepts
  cases what with
  | didOpen path text => exact absurd rfl (hopen path text)
  | _ => rfl

/-- The calls that go on, without what they are for. -/
def phases (w : SessionWorld) : List SessionPhase :=
  w.calls.filterMap SessionEntry.phase

/-- A call that goes on has a number. -/
theorem exists_of_mem_phases {phase : SessionPhase} (h : phase ∈ u.phases) :
    ∃ (n : Nat) (what : SessionCall), u.calls[n]? = some ⟨what, some phase⟩ := by
  simp only [phases, List.mem_filterMap] at h
  obtain ⟨entry, hmem, hphase⟩ := h
  obtain ⟨n, hn⟩ := List.mem_iff_getElem?.mp hmem
  exact ⟨n, entry.what, by rw [hn, ← hphase]⟩

end SessionWorld

open SessionWorld (Regime MayBegin MayDrop MayLaunch MayServe Step create)

/-! ### What goes on by itself -/

/-- What goes on in the session with a number by itself, while nobody has a turn who makes a call. -/
inductive Background (now : Nat) (n : Nat) (r : Sessions) (launching : Nat → Option LaunchSpec) :
    SessionEvent → Sessions → (Nat → Option LaunchSpec) → Prop
  /-- The launcher is called. -/
  | launch {s : Session} {spec : LaunchSpec} (hs : r.session? n = some s)
      (hspec : s.handshake = .launching spec) (hidle : launching n = none) :
      Background now n r launching (.launch spec) r (Function.update launching n (some spec))
  /-- The launcher has come to something. -/
  | launched {s : Session} {spec : LaunchSpec} (started : Except SessionError Unit)
      (hs : r.session? n = some s) (hspec : s.handshake = .launching spec)
      (hlaunching : launching n = some spec) :
      Background now n r launching (.launched (s.launched started).handshake)
        (r.put n (s.launched started)) (Function.update launching n none)
  /-- The handshake goes on. -/
  | shake {r' : Sessions} (h : r.handshakeTurn now n = .moved () r') :
      Background now n r launching .other r' launching
  | shaken {r' : Sessions} (h : r.handshakeTurn now n = .finished () r') :
      Background now n r launching .other r' launching
  /-- The reader goes on. -/
  | read {r' : Sessions} (h : r.readerTurn n = some r') :
      Background now n r launching .other r' launching
  /-- The server writes, and takes messages or refuses them. -/
  | serve {s : Session} {c : Client} (bytes : List UInt8) (accepts ended : Bool)
      (hs : r.session? n = some s) (hclient : s.client = some c) :
      Background now n r launching .other
        (r.put n (s.withClient { c with wire := c.wire.serve bytes accepts ended })) launching

/-! ### All sessions, and one of them -/

/-- All sessions of a program, with the calls that are made on them. -/
structure Hosting where
  sessions : Sessions
  /-- The calls that go on, with the numbers of their sessions. -/
  phases : List (Nat × SessionPhase)
  /-- What the launcher was called for, until something comes of it. -/
  launching : Nat → Option LaunchSpec
  now : Nat

namespace Hosting

variable {S : SessionWorld → SessionEvent → SessionWorld → Prop} {n m : Nat} {h h' h'' : Hosting}
  {w w' : SessionWorld} {r r' : Sessions} {rest others : List (Nat × SessionPhase)}
  {phase phase' : SessionPhase} {launching : Nat → Option LaunchSpec} {now : Nat} {s : Session}
  {fs : FileSystem}

/-- The calls on one session. -/
def phasesOn (n : Nat) (phases : List (Nat × SessionPhase)) : List SessionPhase :=
  phases.filterMap fun x ↦ if x.1 = n then some x.2 else none

@[simp]
theorem phasesOn_append (n : Nat) (a b : List (Nat × SessionPhase)) :
    phasesOn n (a ++ b) = phasesOn n a ++ phasesOn n b :=
  List.filterMap_append

@[simp]
theorem phasesOn_cons_self (n : Nat) (phase : SessionPhase) (rest : List (Nat × SessionPhase)) :
    phasesOn n ((n, phase) :: rest) = phase :: phasesOn n rest := by
  simp [phasesOn]

theorem phasesOn_cons_of_ne (hmn : m ≠ n) (phase : SessionPhase)
    (rest : List (Nat × SessionPhase)) : phasesOn n ((m, phase) :: rest) = phasesOn n rest := by
  simp [phasesOn, hmn]

/-- A session, seen as callers do who have it alone. -/
structure Shows (h : Hosting) (n : Nat) (w : SessionWorld) : Prop where
  session : h.sessions.session? n = some w.session
  phases : w.phases.Perm (phasesOn n h.phases)
  launching : w.launching = h.launching n
  now : w.now = h.now

/-- A number that no session has yet. -/
structure Unborn (h : Hosting) (n : Nat) : Prop where
  session : h.sessions.session? n = none
  phases : phasesOn n h.phases = []
  launching : h.launching n = none

/-- A session as callers see it who have it alone, or that there is none yet. -/
def Tracks (h : Hosting) (n : Nat) : Option SessionWorld → Prop
  | none => h.Unborn n
  | some w => h.Shows n w

/-- What has become of a session: a run has gone on, or has begun. -/
inductive Becomes (S : SessionWorld → SessionEvent → SessionWorld → Prop) :
    Option SessionWorld → Option SessionWorld → Prop
  | unborn : Becomes S none none
  | born {key : RepositoryKey} {checkout : Path} {options : SessionOptions} {t : List SessionEvent}
      {w : SessionWorld} (h : Run S (create key checkout options) t w) : Becomes S none (some w)
  | goesOn {t : List SessionEvent} {w w' : SessionWorld} (h : Run S w t w') :
      Becomes S (some w) (some w')

theorem Becomes.trans {o o' o'' : Option SessionWorld} (h : Becomes S o o')
    (h' : Becomes S o' o'') : Becomes S o o'' := by
  cases h with
  | unborn => exact h'
  | born hrun =>
    cases h' with
    | goesOn hrun' => exact .born (hrun.append hrun')
  | goesOn hrun =>
    cases h' with
    | goesOn hrun' => exact .goesOn (hrun.append hrun')

variable (S n) in
/-- A change of the sessions that is a run for one of them. -/
def Leads (h h' : Hosting) : Prop :=
  ∀ o, h.Tracks n o → ∃ o', Becomes S o o' ∧ h'.Tracks n o'

theorem Leads.trans (h₁ : Leads S n h h') (h₂ : Leads S n h' h'') : Leads S n h h'' := by
  intro o ho
  obtain ⟨o', hbecomes, ho'⟩ := h₁ o ho
  obtain ⟨o'', hbecomes', ho''⟩ := h₂ o' ho'
  exact ⟨o'', hbecomes.trans hbecomes', ho''⟩

/-- What concerns other sessions, or only the order of calls, is nothing to a session. -/
theorem leads_of_same (hsession : h'.sessions.session? n = h.sessions.session? n)
    (hphases : (phasesOn n h.phases).Perm (phasesOn n h'.phases))
    (hlaunching : h'.launching n = h.launching n) (hnow : h'.now = h.now) : Leads S n h h' := by
  intro o ho
  cases o with
  | none =>
    refine ⟨none, .unborn, hsession.trans ho.session, ?_, hlaunching.trans ho.launching⟩
    rw [ho.phases] at hphases
    exact List.nil_perm.mp hphases
  | some w =>
    exact ⟨some w, .goesOn .nil, hsession.trans ho.session, ho.phases.trans hphases,
      ho.launching.trans hlaunching.symm, ho.now.trans hnow.symm⟩

/-- A step of a session. -/
theorem leads_of_step (hunborn : h.sessions.session? n ≠ none)
    (hstep : ∀ w, h.Shows n w → ∃ e w', S w e w' ∧ h'.Shows n w') : Leads S n h h' := by
  intro o ho
  cases o with
  | none => exact absurd ho.session hunborn
  | some w =>
    obtain ⟨e, w', hstep, hw'⟩ := hstep w ho
    exact ⟨some w', .goesOn (Run.nil.snoc hstep), hw'⟩

end Hosting

namespace Sessions

variable {r r' : Sessions} {n m : Nat} {s : Session} {key : RepositoryKey} {fs : FileSystem} {now : Nat}
  {phase : SessionPhase}

theorem session?_put_self (hs : r.session? n = some s) (s' : Session) :
    (r.put n s').session? n = some s' :=
  List.getElem?_set_self (List.getElem?_eq_some_iff.mp hs).1

theorem session?_put_of_ne (h : n ≠ m) (r : Sessions) (s' : Session) :
    (r.put m s').session? n = r.session? n :=
  List.getElem?_set_ne h.symm

theorem session?_put (hs : r.session? m = some s) (n : Nat) (s' : Session) :
    (r.put m s').session? n = if n = m then some s' else r.session? n := by
  split
  · rename_i h
    subst h
    exact session?_put_self hs s'
  · rename_i h
    exact session?_put_of_ne h r s'

theorem session?_change (r : Sessions) (m n : Nat) (f : Session → Session) :
    (r.change m f).session? n = if n = m then (r.session? n).map f else r.session? n := by
  simp only [session?, change, List.getElem?_modify]
  split <;> split <;> simp_all

theorem session?_make (r : Sessions) (key : RepositoryKey) (n : Nat) :
    (r.make key).2.session? n =
      if n = r.all.length then some (Session.create key (key.checkoutPath r.root) r.options)
      else r.session? n := by
  simp only [session?, make]
  split
  · rename_i h
    subst h
    simp
  · rename_i h
    rcases Nat.lt_or_ge n r.all.length with hlt | hge
    · exact List.getElem?_append_left hlt
    · rw [List.getElem?_eq_none (by simp; omega), List.getElem?_eq_none hge]

theorem turnOn_eq_lift (hs : r.session? n = some s) (fs : FileSystem) (now : Nat) (phase : SessionPhase) :
    r.turnOn fs now n phase = (s.turn fs now phase).lift (r.put n) := by
  simp only [turnOn, hs]

/-- A call that goes on is one on a session that is there. -/
theorem turnOn_eq_moved {phase' : SessionPhase} (h : r.turnOn fs now n phase = .moved phase' r') :
    ∃ s s', r.session? n = some s ∧ s.turn fs now phase = .moved phase' s' ∧ r' = r.put n s' := by
  simp only [turnOn] at h
  split at h
  · cases h
  · rename_i s hs
    obtain ⟨s', hturn, rfl⟩ := Turn.lift_eq_moved.mp h
    exact ⟨s, s', hs, hturn, rfl⟩

/-- A call that is over is one on a session that is there, or not on any. -/
theorem turnOn_eq_finished {result : SessionResult}
    (h : r.turnOn fs now n phase = .finished result r') :
    r.session? n = Option.none ∧ r' = r ∨
      ∃ s s', r.session? n = some s ∧ s.turn fs now phase = .finished result s' ∧ r' = r.put n s' := by
  simp only [turnOn] at h
  split at h
  · rename_i hs
    exact Or.inl ⟨hs, (Turn.finished.inj h).2.symm⟩
  · rename_i s hs
    obtain ⟨s', hturn, rfl⟩ := Turn.lift_eq_finished.mp h
    exact Or.inr ⟨s, s', hs, hturn, rfl⟩

theorem handshakeTurn_eq_moved {u : Unit} (h : r.handshakeTurn now n = .moved u r') :
    ∃ s s', r.session? n = some s ∧ s.handshakeTurn now = .moved u s' ∧ r' = r.put n s' := by
  simp only [handshakeTurn] at h
  split at h
  · cases h
  · rename_i s hs
    obtain ⟨s', hturn, rfl⟩ := Turn.lift_eq_moved.mp h
    exact ⟨s, s', hs, hturn, rfl⟩

theorem handshakeTurn_eq_finished {u : Unit} (h : r.handshakeTurn now n = .finished u r') :
    ∃ s s', r.session? n = some s ∧ s.handshakeTurn now = .finished u s' ∧ r' = r.put n s' := by
  simp only [handshakeTurn] at h
  split at h
  · cases h
  · rename_i s hs
    obtain ⟨s', hturn, rfl⟩ := Turn.lift_eq_finished.mp h
    exact ⟨s, s', hs, hturn, rfl⟩

theorem readerTurn_eq_some (h : r.readerTurn n = some r') :
    ∃ s c c', r.session? n = some s ∧ s.client = some c ∧ c.readerTurn = some c' ∧
      r' = r.put n (s.withClient c') := by
  simp only [readerTurn, Option.bind_eq_some_iff, Option.map_eq_some_iff] at h
  obtain ⟨s, hs, c, hclient, c', hread, rfl⟩ := h
  exact ⟨s, c, c', hs, hclient, hread, rfl⟩

end Sessions

namespace Hosting

variable {S : SessionWorld → SessionEvent → SessionWorld → Prop} {n m : Nat} {h h' h'' : Hosting}
  {w w' : SessionWorld} {r r' : Sessions} {rest others : List (Nat × SessionPhase)}
  {phase phase' : SessionPhase} {launching : Nat → Option LaunchSpec} {now : Nat} {s : Session}
  {fs : FileSystem}

/-! ### Calls -/

/-- The calls on a session when one of them has gone on or is over. -/
theorem perm_phases_set {k : Nat} {what : SessionCall} {phase' : Option SessionPhase}
    (hk : w.calls[k]? = some ⟨what, some phase⟩) {s : Session} {launching : Option LaunchSpec}
    (hw : w.phases.Perm (phase :: phasesOn n rest)) :
    (SessionWorld.phases ⟨s, w.calls.set k ⟨what, phase'⟩, launching, now⟩).Perm
      (phase'.toList ++ phasesOn n rest) := by
  obtain ⟨more, hbefore, hafter⟩ := perm_filterMap_set SessionEntry.phase hk
  have hmore : more.Perm (phasesOn n rest) :=
    (List.perm_cons phase).mp (hbefore.symm.trans hw)
  exact (hafter ⟨what, phase'⟩).trans (hmore.append_left _)

/-- A call that begins on a session. -/
theorem leads_beginOn (call : SessionCall)
    (hallowed : m = n → ∀ s, r.session? n = some s → MayBegin S s call) :
    Leads S n ⟨r, rest, launching, now⟩
      ⟨(r.beginOn m call).2, (SessionWorld.phaseOf (r.beginOn m call).1).toList.map (m, ·) ++ rest,
        launching, now⟩ := by
  cases hm : r.session? m with
  | none =>
    refine leads_of_same ?_ ?_ rfl rfl <;> simp [Sessions.beginOn, hm, SessionWorld.phaseOf]
  | some s =>
    simp only [Sessions.beginOn, hm]
    by_cases hmn : m = n
    · subst hmn
      refine leads_of_step (by simp [hm]) fun w hw ↦ ?_
      obtain rfl : s = w.session := Option.some.inj (hm.symm.trans hw.session)
      have hstep := Step.begin (w := w) call
      have haccepts := (w.session.begins_begin call).moves.1.accepts
      refine ⟨_, _, hallowed rfl _ hm _ _ _ _ _ rfl hstep haccepts.trans, ?_, ?_, hw.launching, hw.now⟩
      · exact Sessions.session?_put_self hm _
      · rw [SessionWorld.phases, List.filterMap_append, phasesOn_append]
        refine (List.perm_append_comm ..).trans (List.Perm.append ?_ hw.phases)
        cases (Session.begin call w.session).1 <;> simp [SessionWorld.phaseOf, phasesOn]
    · refine leads_of_same (Sessions.session?_put_of_ne (Ne.symm hmn) r _) ?_ rfl rfl
      cases (Session.begin call s).1 <;> simp [SessionWorld.phaseOf, phasesOn, hmn]

/-- One of the calls on a session goes on, or is over. -/
theorem leads_turn (phase' : Option SessionPhase) (hm : r.session? m = some s) {s' : Session}
    (hstep : ∀ (w : SessionWorld) (k : Nat) (what : SessionCall), w.session = s → w.now = now →
      w.calls[k]? = some ⟨what, some phase⟩ →
      ∃ e, S w e { w with session := s', calls := w.calls.set k ⟨what, phase'⟩ }) :
    Leads S n ⟨r, (m, phase) :: rest, launching, now⟩
      ⟨r.put m s', (phase'.map (m, ·)).toList ++ rest, launching, now⟩ := by
  by_cases hmn : m = n
  · subst hmn
    refine leads_of_step (by simp [hm]) fun w hw ↦ ?_
    have hphases := hw.phases
    rw [phasesOn_cons_self] at hphases
    obtain ⟨k, what, hk⟩ :=
      SessionWorld.exists_of_mem_phases (hphases.mem_iff.mpr List.mem_cons_self)
    obtain ⟨e, hS⟩ := hstep w k what (Option.some.inj (hw.session.symm.trans hm)) hw.now hk
    refine ⟨e, _, hS, Sessions.session?_put_self hm s', ?_, hw.launching, hw.now⟩
    have hperm : (SessionWorld.phases ⟨s', w.calls.set k ⟨what, phase'⟩, w.launching, w.now⟩).Perm
        (phase'.toList ++ phasesOn m rest) := perm_phases_set hk hphases
    cases phase' <;> simpa using hperm
  · refine leads_of_same (Sessions.session?_put_of_ne (Ne.symm hmn) r s') ?_ rfl rfl
    cases phase' <;> simp [phasesOn_cons_of_ne hmn]

/-- A call that goes on. -/
theorem leads_turnOn_moved (hS : Regime S)
    (hturn : r.turnOn fs now m phase = .moved phase' r') :
    Leads S n ⟨r, (m, phase) :: rest, launching, now⟩ ⟨r', (m, phase') :: rest, launching, now⟩ := by
  obtain ⟨s, s', hm, hs, rfl⟩ := Sessions.turnOn_eq_moved hturn
  refine leads_turn (some phase') hm fun w k what hw hnow hk ↦ ?_
  subst hw hnow
  obtain ⟨⟨q, hfirst, hsecond⟩, -⟩ := (Session.goes_of_turn hs).moves
  exact ⟨_, hS.free (.turn fs hk hs) rfl (hsecond.accepts.trans hfirst.accepts).trans⟩

/-- A call that is over. -/
theorem leads_turnOn_finished (hS : Regime S) {result : SessionResult}
    (hturn : r.turnOn fs now m phase = .finished result r') :
    Leads S n ⟨r, (m, phase) :: rest, launching, now⟩ ⟨r', rest, launching, now⟩ := by
  rcases Sessions.turnOn_eq_finished hturn with ⟨hm, rfl⟩ | ⟨s, s', hm, hs, rfl⟩
  · -- There are no calls on sessions that are not there.
    by_cases hmn : m = n
    · subst hmn
      intro o ho
      cases o with
      | none => simpa using ho.phases
      | some w => exact absurd (hm.symm.trans ho.session) nofun
    · refine leads_of_same rfl ?_ rfl rfl
      rw [phasesOn_cons_of_ne hmn]
  · refine leads_turn none hm fun w k what hw hnow hk ↦ ?_
    subst hw hnow
    exact ⟨_, hS.free (.finish fs hk hs) rfl (Session.ends_of_turn hs).moves.1.accepts.trans⟩

/-- A call that is given up. -/
theorem leads_dropOn (hallowed : m = n → MayDrop S phase) :
    Leads S n ⟨r, (m, phase) :: rest, launching, now⟩ ⟨r.dropOn m phase, rest, launching, now⟩ := by
  by_cases hmn : m = n
  · subst hmn
    intro o ho
    cases o with
    | none => simpa using ho.phases
    | some w =>
      have hphases := ho.phases
      rw [phasesOn_cons_self] at hphases
      obtain ⟨k, what, hk⟩ :=
        SessionWorld.exists_of_mem_phases (hphases.mem_iff.mpr List.mem_cons_self)
      have haccepts : (Session.drop phase w.session).post.accepts = w.session.post.accepts := by
        rw [(Session.post_drop phase w.session).1]
        split <;> rfl
      refine ⟨some _, .goesOn (Run.nil.snoc (hallowed rfl _ _ _ _ hk (.drop hk) haccepts.trans)), ?_,
        perm_phases_set hk hphases, ho.launching, ho.now⟩
      rw [Sessions.dropOn, Sessions.session?_change, if_pos rfl]
      exact congrArg (Option.map _) ho.session
  · refine leads_of_same ?_ ?_ rfl rfl
    · rw [Sessions.dropOn, Sessions.session?_change, if_neg (Ne.symm hmn)]
    · rw [phasesOn_cons_of_ne hmn]

/-! ### Handing out -/

/-- Somebody looks at a session. -/
theorem leads_observe (hS : Regime S) (m : Nat) :
    Leads S n ⟨r, rest, launching, now⟩ ⟨r.change m Session.observe, rest, launching, now⟩ := by
  by_cases hmn : n = m
  · subst hmn
    intro o ho
    cases o with
    | none =>
      refine ⟨none, .unborn, ?_, ho.phases, ho.launching⟩
      rw [Sessions.session?_change, if_pos rfl]
      exact congrArg (Option.map _) ho.session
    | some w =>
      refine ⟨some _, .goesOn (Run.nil.snoc (hS.free Step.observe rfl
        (by rw [Session.post_observe]; exact id))), ?_, ho.phases, ho.launching, ho.now⟩
      rw [Sessions.session?_change, if_pos rfl]
      exact congrArg (Option.map _) ho.session
  · refine leads_of_same ?_ (.refl _) rfl rfl
    rw [Sessions.session?_change, if_neg hmn]

/-- A session is made. -/
theorem leads_make (hS : Regime S) (key : RepositoryKey) :
    Leads S n ⟨r, rest, launching, now⟩ ⟨(r.make key).2, rest, launching, now⟩ := by
  by_cases hn : n = r.all.length
  · intro o ho
    cases o with
    | none =>
      -- The new session begins at once, as one that has waited until now.
      have hrun := Run.nil.snoc (hS.free (Step.pass
        (w := create key (key.checkoutPath r.root) r.options) now) rfl id)
      refine ⟨some _, .born hrun, ?_, ?_, ho.launching.symm, Nat.zero_add now⟩
      · rw [Sessions.session?_make, if_pos hn]
        rfl
      · rw [ho.phases]
        exact .nil
    | some w =>
      have hnone : r.session? n = none := List.getElem?_eq_none (Nat.le_of_eq hn.symm)
      exact absurd (hnone.symm.trans ho.session) nofun
  · refine leads_of_same ?_ (.refl _) rfl rfl
    rw [Sessions.session?_make, if_neg hn]

/-- A session is handed out. -/
theorem leads_get (hS : Regime S) (key : RepositoryKey) :
    Leads S n ⟨r, rest, launching, now⟩ ⟨(r.get key).2, rest, launching, now⟩ := by
  simp only [Sessions.get]
  split
  · exact leads_make hS key
  · rename_i m hm
    have hobserve : Leads S n ⟨r, rest, launching, now⟩
        ⟨r.change m Session.observe, rest, launching, now⟩ := leads_observe hS m
    split
    · exact hobserve.trans (leads_make hS key)
    · split
      · exact hobserve.trans (leads_make hS key)
      · exact hobserve

/-- The table of sessions is nothing to them. -/
theorem leads_of_all (hall : r'.all = r.all) :
    Leads S n ⟨r, rest, launching, now⟩ ⟨r', rest, launching, now⟩ :=
  leads_of_same (by simp only [Sessions.session?, hall]) (.refl _) rfl rfl

/-- Time passes. -/
theorem leads_pass (hS : Regime S) (d : Nat) :
    Leads S n ⟨r, rest, launching, now⟩ ⟨r, rest, launching, now + d⟩ := by
  intro o ho
  cases o with
  | none => exact ⟨none, .unborn, ho.session, ho.phases, ho.launching⟩
  | some w =>
    refine ⟨some _, .goesOn (Run.nil.snoc (hS.free (Step.pass d) rfl id)), ho.session, ho.phases,
      ho.launching, ?_⟩
    exact congrArg (· + d) ho.now

/-! ### What goes on by itself -/

/-- A session goes on by itself. -/
theorem leads_put (hm : r.session? m = some s) {s' : Session} {launching' : Nat → Option LaunchSpec}
    (hlaunching : ∀ k, k ≠ m → launching' k = launching k)
    (hstep : m = n → ∀ w : SessionWorld, w.session = s → w.now = now → w.launching = launching n →
      ∃ e w', S w e w' ∧ w'.session = s' ∧ w'.calls = w.calls ∧ w'.launching = launching' n ∧
        w'.now = now) :
    Leads S n ⟨r, rest, launching, now⟩ ⟨r.put m s', rest, launching', now⟩ := by
  by_cases hmn : m = n
  · subst hmn
    refine leads_of_step (by simp [hm]) fun w hw ↦ ?_
    obtain ⟨e, w', hS, hs', hcalls, hl, hnow⟩ := hstep rfl w
      (Option.some.inj (hw.session.symm.trans hm)) hw.now hw.launching
    refine ⟨e, w', hS, ?_, ?_, hl, hnow⟩
    · rw [Sessions.session?_put_self hm, hs']
    · rw [SessionWorld.phases, hcalls]
      exact hw.phases
  · exact leads_of_same (Sessions.session?_put_of_ne (Ne.symm hmn) r s') (.refl _)
      (hlaunching n (Ne.symm hmn)) rfl

/-- What comes of a launch does not make a server refuse messages. -/
theorem accepts_launched (s : Session) (started : Except SessionError Unit)
    (h : s.post.accepts = true) : (s.launched started).post.accepts = true := by
  rcases s.launched_cases started with ⟨e, heq⟩ | ⟨call, c, d, heq, -, hmoves, -, -⟩
  · rw [heq]
    exact h
  · rw [heq]
    exact hmoves.accepts

/-- The reader of a session keeps what it takes of messages. -/
theorem accepts_readerTurn {c c' : Client} (hclient : s.client = some c) (hread : c.readerTurn = some c')
    (haccepts : s.post.accepts = true) : (s.withClient c').post.accepts = true := by
  rw [Session.post_of_client hclient] at haccepts
  exact (Client.moves_readerTurn hread).1.accepts.trans haccepts

/-- What goes on in a session by itself is a run of its callers. -/
theorem leads_background (hS : Regime S) {e : SessionEvent}
    {launching' : Nat → Option LaunchSpec} (hback : Background now m r launching e r' launching')
    (hlaunch : m = n → e.launches = true → MayLaunch S)
    (hserve : m = n → ∀ s s', r.session? n = some s → r'.session? n = some s' →
      MayServe S s'.post.accepts) :
    Leads S n ⟨r, rest, launching, now⟩ ⟨r', rest, launching', now⟩ := by
  cases hback with
  | @launch s spec hs hspec hidle =>
    by_cases hmn : m = n
    · subst hmn
      refine leads_of_step (by simp [hs]) fun w hw ↦ ?_
      obtain rfl : s = w.session := Option.some.inj (hs.symm.trans hw.session)
      have hstep := Step.launch hspec (hw.launching.trans hidle)
      refine ⟨_, _, hlaunch rfl rfl _ _ _ hstep id, hw.session, hw.phases, ?_, hw.now⟩
      exact (Function.update_self m (some spec) launching).symm
    · exact leads_of_same rfl (.refl _) (Function.update_of_ne (Ne.symm hmn) (some spec) launching) rfl
  | launched started hs hspec hlaunching =>
    refine leads_put hs (fun k hk ↦ Function.update_of_ne hk _ _) fun hmn w hw hnow hl ↦ ?_
    subst hmn hw
    have hstep := Step.launched started hspec (hl.trans hlaunching)
    refine ⟨_, _, hS.free hstep rfl (accepts_launched w.session started), rfl, rfl, ?_, hnow⟩
    exact (Function.update_self m none launching).symm
  | shake hturn =>
    obtain ⟨s, s', hs, hshake, rfl⟩ := Sessions.handshakeTurn_eq_moved hturn
    refine leads_put hs (fun _ _ ↦ rfl) fun hmn w hw hnow hl ↦ ?_
    subst hmn hw hnow
    have hmoves := (Session.moves_handshakeTurn (Or.inl hshake)).1
    exact ⟨_, _, hS.free (.shake hshake) rfl hmoves.accepts.trans, rfl, rfl, hl, rfl⟩
  | shaken hturn =>
    obtain ⟨s, s', hs, hshake, rfl⟩ := Sessions.handshakeTurn_eq_finished hturn
    refine leads_put hs (fun _ _ ↦ rfl) fun hmn w hw hnow hl ↦ ?_
    subst hmn hw hnow
    have hmoves := (Session.moves_handshakeTurn (Or.inr hshake)).1
    exact ⟨_, _, hS.free (.shaken hshake) rfl hmoves.accepts.trans, rfl, rfl, hl, rfl⟩
  | read hread =>
    obtain ⟨s, c, c', hs, hclient, htaken, rfl⟩ := Sessions.readerTurn_eq_some hread
    refine leads_put hs (fun _ _ ↦ rfl) fun hmn w hw hnow hl ↦ ?_
    subst hmn hw
    refine ⟨_, _, hS.free (.read hclient htaken rfl) ?_ (accepts_readerTurn hclient htaken), rfl, rfl, hl,
      hnow⟩
    cases c.reading <;> rfl
  | serve bytes accepts ended hs hclient =>
    refine leads_put hs (fun _ _ ↦ rfl) fun hmn w hw hnow hl ↦ ?_
    subst hmn hw
    have hstep := Step.serve bytes accepts ended hclient
    exact ⟨_, _, hserve rfl _ _ hs (Sessions.session?_put_self hs _) _ _ hstep rfl, rfl, rfl, hl, hnow⟩

end Hosting

end CodeNav
