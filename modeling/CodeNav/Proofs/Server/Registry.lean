import CodeNav.Proofs.Server.Evictions
import CodeNav.Proofs.Server.Lasting

/-!
# Sessions handed out and taken out

Sessions are asked for, looked up and taken out in any order. Whoever has got one makes calls on it, as
many as they like, and keeps it when it is taken out; meanwhile handshakes and readers go on, and servers
write, refuse messages and end.

## Main definitions

* `RegistryEvent`: what is seen of those who hand sessions out or take them out
* `RegistryWorld`: all sessions, with the calls that are made on them and those by which they are taken out
* `RegistryWorld.Step`: how all of them take turns

## Main statements

* `RegistryWorld.leads_of_step`: every session goes through a run of its own callers
* `RegistryWorld.lasting_of_run`: what lasts in a session, lasts among others
* `RegistryWorld.launchable_of_run`: the launcher is called once for a session
-/

namespace CodeNav

open SessionWorld (Regime MayBegin MayDrop MayLaunch MayServe)

/-- What is seen of those who hand sessions out or take them out. Sessions are known by their numbers; the
calls by which they are taken out are counted in the order in which they begin. -/
inductive RegistryEvent where
  | got (key : RepositoryKey) (session : Nat)
  | found (key : RepositoryKey) (session : Option Nat)
  /-- A call takes sessions out; it may be over at once. -/
  | evicted (call : EvictionCall) (eviction : Nat) (taken : List Nat) (result : Option Bool)
  /-- A call by which sessions were taken out returns. -/
  | returned (eviction : Nat) (any : Bool)
  | abandoned (eviction : Nat)
  /-- A session has gone on by itself. -/
  | inside (session : Nat) (e : SessionEvent)
  /-- Something else. -/
  | other

/-- All sessions, with the calls that are made on them and those by which they are taken out; nothing is
left of a call that is over. -/
structure RegistryWorld where
  sessions : Sessions
  calls : List (Option (Nat × SessionPhase))
  evictions : List (Option Eviction)
  /-- What the launcher was called for, by the numbers of sessions. -/
  launching : Nat → Option LaunchSpec
  now : Nat

/-- The sessions that a call takes out. -/
def Sessions.takenBy (r : Sessions) : EvictionCall → List Nat
  | .one key => (r.find? key).toList
  | .all => r.table.map Prod.snd

namespace RegistryWorld

/-- No session has been asked for yet. -/
def create (root : Path) (options : SessionOptions) : RegistryWorld :=
  ⟨.none root options, [], [], fun _ ↦ none, 0⟩

/-- A session. -/
def session? (w : RegistryWorld) (n : Nat) : Option Session := w.sessions.session? n

/-- How those who use sessions take turns. -/
inductive Step (w : RegistryWorld) : RegistryEvent → RegistryWorld → Prop
  | get (key : RepositoryKey) :
      Step w (.got key (w.sessions.get key).1) { w with sessions := (w.sessions.get key).2 }
  | find (key : RepositoryKey) : Step w (.found key (w.sessions.find? key)) w
  | evict (call : EvictionCall) :
      Step w
        (.evicted call w.evictions.length (w.sessions.takenBy call)
          (Eviction.begin call w.sessions).1.getRight?)
        { w with
          sessions := (Eviction.begin call w.sessions).2
          evictions := w.evictions ++ [(Eviction.begin call w.sessions).1.getLeft?] }
  /-- One of the sessions that were taken out is closed further. -/
  | close {n strand : Nat} {e e' : Eviction} {r : Sessions} (fs : FileSystem)
      (hn : w.evictions[n]? = some (some e)) (h : e.turn fs w.now strand w.sessions = .moved e' r) :
      Step w .other { w with sessions := r, evictions := w.evictions.set n (some e') }
  | finish {n strand : Nat} {e : Eviction} {any : Bool} {r : Sessions} (fs : FileSystem)
      (hn : w.evictions[n]? = some (some e)) (h : e.turn fs w.now strand w.sessions = .finished any r) :
      Step w (.returned n any) { w with sessions := r, evictions := w.evictions.set n none }
  | abandon {n : Nat} {e : Eviction} (hn : w.evictions[n]? = some (some e)) :
      Step w (.abandoned n)
        { w with sessions := e.drop w.sessions, evictions := w.evictions.set n none }
  | callBegin {m : Nat} {s : Session} (call : SessionCall) (hs : w.session? m = some s) :
      Step w .other
        { w with
          sessions := (w.sessions.beginOn m call).2
          calls := w.calls ++ [(SessionWorld.phaseOf (w.sessions.beginOn m call).1).map (m, ·)] }
  | callTurn {n m : Nat} {phase phase' : SessionPhase} {r : Sessions} (fs : FileSystem)
      (hn : w.calls[n]? = some (some (m, phase)))
      (h : w.sessions.turnOn fs w.now m phase = .moved phase' r) :
      Step w .other { w with sessions := r, calls := w.calls.set n (some (m, phase')) }
  | callEnd {n m : Nat} {phase : SessionPhase} {result : SessionResult} {r : Sessions}
      (fs : FileSystem) (hn : w.calls[n]? = some (some (m, phase)))
      (h : w.sessions.turnOn fs w.now m phase = .finished result r) :
      Step w .other { w with sessions := r, calls := w.calls.set n none }
  | callDrop {n m : Nat} {phase : SessionPhase} (hn : w.calls[n]? = some (some (m, phase))) :
      Step w .other
        { w with sessions := w.sessions.dropOn m phase, calls := w.calls.set n none }
  | observe (m : Nat) : Step w .other { w with sessions := w.sessions.change m Session.observe }
  | inside {n : Nat} {e : SessionEvent} {r : Sessions} {launching : Nat → Option LaunchSpec}
      (h : Background w.now n w.sessions w.launching e r launching) :
      Step w (.inside n e) { w with sessions := r, launching := launching }
  | pass (d : Nat) : Step w .other { w with now := w.now + d }

/-! ### One session among others -/

/-- All calls that go on. -/
def hosting (w : RegistryWorld) : Hosting :=
  ⟨w.sessions, w.calls.flatMap Option.toList ++ w.evictions.flatMap Eviction.callsOf, w.launching,
    w.now⟩

end RegistryWorld

/-- The system of all steps is a regime. -/
theorem SessionWorld.regime_step : Regime Step := ⟨id, fun h _ _ ↦ h⟩

namespace RegistryWorld

variable {n : Nat} {w w' : RegistryWorld} {e : RegistryEvent} {t more : List RegistryEvent}
  {root : Path} {options : SessionOptions}

/-- One of the calls on sessions goes on or is over. -/
theorem leads_calls_set {k : Nat} {call : Nat × SessionPhase} {after : Option (Nat × SessionPhase)}
    {r : Sessions} (hk : w.calls[k]? = some (some call))
    (hleads : ∀ rest, Hosting.Leads SessionWorld.Step n ⟨w.sessions, call :: rest, w.launching, w.now⟩
      ⟨r, after.toList ++ rest, w.launching, w.now⟩) :
    Hosting.Leads SessionWorld.Step n w.hosting
      (hosting { w with sessions := r, calls := w.calls.set k after }) := by
  obtain ⟨rest, hbefore, hafter⟩ := perm_flatMap_set Option.toList hk
  have hgoes := hleads (rest ++ w.evictions.flatMap Eviction.callsOf)
  rw [← List.append_assoc] at hgoes
  refine (Hosting.leads_perm (hbefore.append_right _)).trans (hgoes.trans ?_)
  exact Hosting.leads_perm ((hafter after).symm.append_right _)

/-- One of the calls that take sessions out goes on or is over. -/
theorem leads_evictions_set {k : Nat} {e : Eviction} {after : Option Eviction} {r : Sessions}
    (hk : w.evictions[k]? = some (some e))
    (hleads : ∀ rest, Hosting.Leads SessionWorld.Step n
      ⟨w.sessions, e.phases ++ rest, w.launching, w.now⟩
      ⟨r, Eviction.callsOf after ++ rest, w.launching, w.now⟩) :
    Hosting.Leads SessionWorld.Step n w.hosting
      (hosting { w with sessions := r, evictions := w.evictions.set k after }) := by
  obtain ⟨rest, hbefore, hafter⟩ := perm_flatMap_set Eviction.callsOf hk
  have hcomm : ∀ a : List (Nat × SessionPhase), (w.calls.flatMap Option.toList ++ (a ++ rest)).Perm
      (a ++ (w.calls.flatMap Option.toList ++ rest)) :=
    fun a ↦ List.perm_append_comm_assoc ..
  refine (Hosting.leads_perm ((hbefore.append_left _).trans (hcomm _))).trans ((hleads _).trans ?_)
  exact Hosting.leads_perm (((hafter after).append_left _).trans (hcomm _)).symm

/-- Every session goes through a run of its own callers. -/
theorem leads_of_step (h : Step w e w') (n : Nat) :
    Hosting.Leads SessionWorld.Step n w.hosting w'.hosting := by
  have hS := SessionWorld.regime_step
  cases h with
  | get key => exact Hosting.leads_get hS key
  | find key => exact Hosting.leads_of_all rfl
  | evict call =>
    refine (Hosting.leads_evict hS call).trans (Hosting.leads_perm ?_)
    rw [List.flatMap_append, List.flatMap_singleton]
    exact List.perm_append_comm.trans (.of_eq (List.append_assoc ..))
  | close fs hn h =>
    exact leads_evictions_set hn fun _ ↦ Hosting.leads_evictionTurn_moved hS h
  | finish fs hn h =>
    exact leads_evictions_set hn fun _ ↦ Hosting.leads_evictionTurn_finished hS h
  | abandon hn =>
    exact leads_evictions_set hn fun _ ↦ Hosting.leads_evictionDrop fun _ _ _ _ _ _ _ h _ ↦ h
  | callBegin call hs =>
    refine (Hosting.leads_beginOn call fun _ _ _ _ _ _ _ _ _ h _ ↦ h).trans (Hosting.leads_perm ?_)
    rw [List.flatMap_append, List.flatMap_singleton, List.append_assoc]
    refine (List.perm_append_comm_assoc ..).trans (List.Perm.append_left _ (.append_right _ ?_))
    cases (SessionWorld.phaseOf (w.sessions.beginOn _ call).1) <;> exact .refl _
  | callTurn fs hn h => exact leads_calls_set hn fun _ ↦ Hosting.leads_turnOn_moved hS h
  | callEnd fs hn h => exact leads_calls_set hn fun _ ↦ Hosting.leads_turnOn_finished hS h
  | callDrop hn => exact leads_calls_set hn fun _ ↦ Hosting.leads_dropOn fun _ _ _ _ _ _ h _ ↦ h
  | observe m => exact Hosting.leads_observe hS m
  | inside h =>
    exact Hosting.leads_background hS h (fun _ _ _ _ _ h _ ↦ h) fun _ _ _ _ _ _ _ h _ ↦ h
  | pass d => exact Hosting.leads_pass hS d

theorem leads_of_run (h : Run Step w t w') (n : Nat) :
    Hosting.Leads SessionWorld.Step n w.hosting w'.hosting := by
  induction h with
  | nil => exact Hosting.leads_of_all rfl
  | snoc _ hstep ih => exact ih.trans (leads_of_step hstep n)

/-- A session that is there has gone through a run of its own callers, and goes on with it. -/
theorem exists_run_of_run (h : Run Step (create root options) t w) (hmore : Run Step w more w')
    {s : Session} (hs : w.session? n = some s) :
    ∃ key checkout options before after u u',
      Run SessionWorld.Step (SessionWorld.create key checkout options) before u ∧
        Run SessionWorld.Step u after u' ∧ s = u.session ∧ w'.session? n = some u'.session ∧
          u.launching = w.launching n ∧ u'.launching = w'.launching n := by
  obtain ⟨o, hbecomes, htracks⟩ := leads_of_run h n none ⟨rfl, rfl, rfl⟩
  cases hbecomes with
  | unborn => exact absurd (hs.symm.trans htracks.session) nofun
  | born hrun =>
    obtain ⟨o', hgoes, htracks'⟩ := leads_of_run hmore n _ htracks
    cases hgoes with
    | goesOn hrun' =>
      exact ⟨_, _, _, _, _, _, _, hrun, hrun', Option.some.inj (hs.symm.trans htracks.session),
        htracks'.session, htracks.launching, htracks'.launching⟩

/-- A session that is there stays there, what lasts in it, lasts, and once closed it stays closed. -/
theorem lasting_of_run (h : Run Step (create root options) t w) (hmore : Run Step w more w')
    {s : Session} (hs : w.session? n = some s) :
    ∃ s', w'.session? n = some s' ∧ s.Lasts s' ∧ (s.state = .closed → s'.state = .closed) := by
  obtain ⟨key, checkout, options, before, after, u, u', hrun, hrun', rfl, hs', -, -⟩ :=
    exists_run_of_run h hmore hs
  exact ⟨_, hs', SessionWorld.lasts_of_run hrun hrun', SessionWorld.closed_of_run hrun'⟩

/-! ### Launches -/

/-- The launcher may still be called for a session. -/
def Launchable (n : Nat) (w : RegistryWorld) : Prop :=
  ∃ s, w.session? n = some s ∧
    (s.handshake = .notBegun ∨ ∃ spec, s.handshake = .launching spec ∧ w.launching n = none)

/-- Once the launcher was called for a session, it is not called again. -/
theorem launchable_of_run (h : Run Step (create root options) t w) (hmore : Run Step w more w')
    {s : Session} (hs : w.session? n = some s) (hlaunchable : w'.Launchable n) :
    w.Launchable n := by
  obtain ⟨key, checkout, options, before, after, u, u', hrun, hrun', rfl, hs', hl, hl'⟩ :=
    exists_run_of_run h hmore hs
  obtain ⟨s', hs'', hlaunchable⟩ := hlaunchable
  obtain rfl := Option.some.inj (hs'.symm.trans hs'')
  rw [← hl'] at hlaunchable
  refine ⟨_, hs, ?_⟩
  rw [← hl]
  exact SessionWorld.launchable_of_run hrun hrun' hlaunchable

end RegistryWorld

end CodeNav
