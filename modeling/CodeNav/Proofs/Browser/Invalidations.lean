import CodeNav.Proofs.Browser.Checkouts
import CodeNav.Proofs.Browser.Evolution
import CodeNav.Proofs.Browser.Manners

/-!
# Sessions of checkouts that have changed

A handler whose call has changed a checkout takes out the session of its repository, and closes it before
the call returns. Meanwhile other handlers may hand out sessions for the same repository, at any time.
When the call returns, the table has no session that was made before the checkout had changed, and those
that the handler has taken out are closed. A call that fails, or has nothing to do, leaves all sessions
alone.

## Main definitions

* `ServiceWorld.Works`: the call on a checkout that goes on for a handler
* `ServiceWorld.Changes`: the checkout of a call changes in a step
* `ServiceWorld.Invalidated`, `ServiceWorld.Untouched`: what sessions are like when a call returns

## Main statements

* `ServiceWorld.Renews.run`: once a checkout has changed, its sessions are taken out or made later
* `ServiceWorld.Charged.run`: a session that was taken out is being closed until the call returns
* `ServiceWorld.invalidated_of_run`: sessions of checkouts that have changed are taken out and closed
-/

namespace CodeNav

/-! ### Taking out the session of a repository -/

namespace Eviction

variable {r r' : Sessions} {fs : FileSystem} {now m : Nat} {key key' : RepositoryKey}
  {x : Option Eviction} {y : Eviction} {any : Bool}

/-- When taking out the session of a repository has begun, there is none in the table. -/
theorem not_mem_turnFor_none (fs : FileSystem) (now : Nat) (key : RepositoryKey) (r : Sessions) :
    (turnFor fs now key none r).Leads fun r' ↦ ∀ m, (key, m) ∉ r'.table := by
  have hnone : ∀ m, (key, m) ∉ (begin (.one key) r).2.table := by
    intro m
    rw [(r.table_evict (.one key)).1]
    simp [Sessions.remaining, Sessions.without]
  refine Turn.leads_iff.mpr ⟨fun y r' hturn ↦ ?_, fun any r' hturn ↦ ?_⟩
  · rwa [turnFor_none_eq_moved.mp hturn] at hnone
  · rwa [turnFor_none_eq_finished.mp hturn] at hnone

/-- Closing a session that was taken out leaves the table as it is. -/
theorem table_turnFor_some (fs : FileSystem) (now : Nat) (key : RepositoryKey) (y : Eviction)
    (r : Sessions) : (turnFor fs now key (some y) r).Leads fun r' ↦ r'.table = r.table :=
  (Sessions.SameShelf.admitsClosing.evictionTurn y fs now 0 r).imp fun _ hshelf ↦ hshelf.table

/-- A session that is no longer in the table was the one to be taken out. -/
theorem mem_takenBy_of_not_mem (hfind : (key', m) ∈ r.table → r.find? key' = some m)
    (hm : (key', m) ∈ r.table) (hm' : (key', m) ∉ (begin (.one key) r).2.table) :
    m ∈ r.takenBy (.one key) := by
  rw [(r.table_evict (.one key)).1] at hm'
  have hkey : key' = key := by
    by_contra hne
    exact hm' (List.mem_filter.mpr ⟨hm, decide_eq_true hne⟩)
  subst hkey
  simp [Sessions.takenBy, hfind hm]

/-- A session that was taken out is being closed. -/
theorem closes_of_taken (hsessions : ∀ key n, (key, n) ∈ r.table → ∃ s, r.session? n = some s)
    (hfind : (key', m) ∈ r.table → r.find? key' = some m)
    (hturn : turnFor fs now key x r = .moved y r') (hm : (key', m) ∈ r.table)
    (hm' : (key', m) ∉ r'.table) : m ∈ y.closings.map Prod.fst ∧ y.Closes r' := by
  cases x with
  | some x =>
    have htable : r'.table = r.table := (table_turnFor_some fs now key x r).moved hturn
    exact absurd (htable ▸ hm) hm'
  | none =>
    have hbegin := turnFor_none_eq_moved.mp hturn
    obtain ⟨htaken, hcloses⟩ := closes_of_begin hsessions (.one key) hbegin
    exact ⟨htaken ▸ mem_takenBy_of_not_mem hfind hm (by rwa [hbegin]), hcloses⟩

/-- A session that was taken out at once is closed. -/
theorem closed_of_taken (hsessions : ∀ key n, (key, n) ∈ r.table → ∃ s, r.session? n = some s)
    (hfind : (key', m) ∈ r.table → r.find? key' = some m)
    (hturn : turnFor fs now key x r = .finished any r') (hm : (key', m) ∈ r.table)
    (hm' : (key', m) ∉ r'.table) : ∃ s, r'.session? m = some s ∧ s.state = .closed := by
  cases x with
  | some x =>
    have htable : r'.table = r.table := (table_turnFor_some fs now key x r).finished hturn
    exact absurd (htable ▸ hm) hm'
  | none =>
    have hbegin := turnFor_none_eq_finished.mp hturn
    exact closed_of_begin hsessions (.one key) hbegin
      (mem_takenBy_of_not_mem hfind hm (by rwa [hbegin]))

end Eviction

/-! ### Runs -/

namespace ServiceWorld

open HandlerPhase (Advance)

variable {v : Service} {w w' u u' : ServiceWorld} {e : ServiceEvent} {t : List ServiceEvent} {n m : Nat}
  {k : CheckoutCall} {x : Option Eviction} {root : Path} {options : SessionOptions}
  {checkouts : Checkouts}

/-- The call on a checkout that goes on for a handler, and the session that it has taken out. -/
def Works (w : ServiceWorld) (n : Nat) (k : CheckoutCall) (x : Option Eviction) : Prop :=
  ∃ h, w.handlers[n]? = some (some h) ∧ h.phase.checkout? = some (k, x)

theorem Works.unique {k' : CheckoutCall} {x' : Option Eviction} (h : w.Works n k x)
    (h' : w.Works n k' x') : k = k' ∧ x = x' := by
  obtain ⟨a, ha, hk⟩ := h
  obtain ⟨b, hb, hk'⟩ := h'
  obtain rfl := Option.some.inj (Option.some.inj (ha.symm.trans hb))
  exact Prod.mk.inj (Option.some.inj (hk.symm.trans hk'))

/-- A handler has no call on a checkout any more, and will have none. -/
def Done (w : ServiceWorld) (n : Nat) : Prop :=
  ∃ a, w.handlers[n]? = some a ∧ ∀ h, a = some h → ¬ h.phase.Quiet ∧ h.phase.checkout? = none

/-- A handler that is over. -/
theorem done_of_none (h : w.handlers[n]? = some none) : w.Done n :=
  ⟨none, h, fun _ heq ↦ (by cases heq)⟩

theorem done_of_aside {a : Handler} (h : w.handlers[n]? = some (some a)) (hquiet : ¬ a.phase.Quiet)
    (hnone : a.phase.checkout? = none) : w.Done n :=
  ⟨some a, h, fun _ heq ↦ Option.some.inj heq ▸ ⟨hquiet, hnone⟩⟩

theorem Done.not_works (h : w.Done n) : ¬ w.Works n k x := by
  rintro ⟨b, hb, hk⟩
  obtain ⟨a, ha, hnone⟩ := h
  obtain rfl := Option.some.inj (ha.symm.trans hb)
  exact absurd ((hnone b rfl).2.symm.trans hk) nofun

/-- What becomes of a handler in a step. -/
inductive Follows (n : Nat) (w w' : ServiceWorld) : Prop
  | same (h : w'.handlers[n]? = w.handlers[n]?)
  | arrives (message : PageMessage) (h : w.handlers[n]? = none)
      (h' : w'.handlers[n]? = some (some (.begin message)))
  | advances {a b : Handler} (h : w.handlers[n]? = some (some a)) (h' : w'.handlers[n]? = some (some b))
      (hadvance : Advance w.now w.state a.phase b.phase w'.state)
  | ends {a : Handler} (h : w.handlers[n]? = some (some a)) (h' : w'.handlers[n]? = some none)

theorem getElem?_set_self {l : List (Option Handler)} {a b : Option Handler} (h : l[n]? = some a) :
    (l.set n b)[n]? = some b :=
  List.getElem?_set_self (List.getElem?_eq_some_iff.mp h).1

/-- A handler that takes a turn goes on, or is over. -/
theorem Acts.advance (h : Acts v n w e w') : ∃ a, w.handlers[n]? = some (some a) ∧
    (w'.handlers[n]? = some none ∨ ∃ b, w'.handlers[n]? = some (some b) ∧
      Advance w.now w.state a.phase b.phase w'.state) := by
  cases h with
  | @moved a b s strand news hn hturn =>
    have hdoes := Handler.does_of_moved True hturn (Or.inl True.intro)
    exact ⟨a, hn, Or.inr ⟨b, getElem?_set_self hn, hdoes.advance⟩⟩
  | @finished a reply s strand news hn hturn => exact ⟨a, hn, Or.inl (getElem?_set_self hn)⟩

theorem Acts.follows (h : Acts v n w e w') : Follows n w w' := by
  obtain ⟨a, ha, hnone | ⟨b, hb, hadvance⟩⟩ := h.advance
  · exact .ends ha hnone
  · exact .advances ha hb hadvance

/-- What becomes of every handler in a step. -/
theorem follows_of_step (h : Step v w e w') (n : Nat) : Follows n w w' := by
  cases h with
  | arrive message =>
    rcases Nat.lt_trichotomy n w.handlers.length with hlt | rfl | hgt
    · exact .same (List.getElem?_append_left hlt)
    · exact .arrives message (List.getElem?_eq_none (Nat.le_refl _)) List.getElem?_concat_length
    · refine .same ?_
      rw [List.getElem?_eq_none (by simp; omega), List.getElem?_eq_none (Nat.le_of_lt hgt)]
  | @turn k a b s strand news hk hturn =>
    by_cases hkn : k = n
    · subst hkn
      exact (Acts.moved strand news hk hturn).follows
    · exact .same (List.getElem?_set_ne hkn)
  | @finish k a reply s strand news hk hturn =>
    by_cases hkn : k = n
    · subst hkn
      exact (Acts.finished strand news hk hturn).follows
    · exact .same (List.getElem?_set_ne hkn)
  | @drop k a hk =>
    by_cases hkn : k = n
    · subst hkn
      exact .ends hk (getElem?_set_self hk)
    · exact .same (List.getElem?_set_ne hkn)
  | inside | change | pass => exact .same rfl

/-- A call on a checkout was there before, or has begun in a handler that had done nothing yet. -/
theorem Works.of_step (h : w'.Works n k x) (hstep : Step v w e w') (hk : k.Tells) :
    w.Works n k x ∨
      (∃ k₀ x₀, w.Works n k₀ x₀ ∧ k₀.Finishes k ∧ x = none) ∨
      ∃ x₀ y, w.Works n k x₀ ∧ x = some y ∧
        Eviction.turnFor w.state.fs w.now k.key x₀ w.state.sessions = .moved y w'.state.sessions := by
  obtain ⟨b, hb, hcall⟩ := h
  cases follows_of_step hstep n with
  | same h => exact Or.inl ⟨b, h ▸ hb, hcall⟩
  | arrives message _ h' =>
    obtain rfl := Option.some.inj (Option.some.inj (h'.symm.trans hb))
    cases hcall
  | ends _ h' => exact absurd (Option.some.inj (h'.symm.trans hb)) nofun
  | @advances a b' ha h' hadvance =>
    obtain rfl := Option.some.inj (Option.some.inj (h'.symm.trans hb))
    cases hadvance with
    | quiet _ hp' => exact absurd hp' (HandlerPhase.not_quiet_of_tells hcall hk)
    | finishes hk₀ hk' hfinishes =>
      obtain ⟨rfl, rfl⟩ := Prod.mk.inj (Option.some.inj (hk'.symm.trans hcall))
      exact Or.inr (Or.inl ⟨_, _, ⟨a, ha, hk₀⟩, hfinishes, rfl⟩)
    | tells hk₀ hk' htells hturn =>
      obtain ⟨rfl, rfl⟩ := Prod.mk.inj (Option.some.inj (hk'.symm.trans hcall))
      exact Or.inr (Or.inr ⟨_, _, ⟨a, ha, hk₀⟩, rfl, hturn⟩)
    | aside _ hnone => exact absurd (hnone.symm.trans hcall) nofun

/-- A call whose checkout has changed goes on to take out the session, or its handler is done with it. -/
theorem Works.step (h : w.Works n k x) (hk : k.Tells) (hstep : Step v w e w') :
    w'.Works n k x ∨ w'.Done n ∨ ∃ y, w'.Works n k (some y) ∧
      Eviction.turnFor w.state.fs w.now k.key x w.state.sessions = .moved y w'.state.sessions := by
  obtain ⟨a, ha, hcall⟩ := h
  cases follows_of_step hstep n with
  | same h => exact Or.inl ⟨a, h.trans ha, hcall⟩
  | arrives _ h => exact absurd (h.symm.trans ha) nofun
  | ends _ h' => exact Or.inr (Or.inl (done_of_none h'))
  | @advances a' b ha' hb hadvance =>
    obtain rfl := Option.some.inj (Option.some.inj (ha'.symm.trans ha))
    cases hadvance with
    | quiet hp => exact absurd hp (HandlerPhase.not_quiet_of_tells hcall hk)
    | finishes hk₀ _ hfinishes =>
      obtain ⟨rfl, -⟩ := Prod.mk.inj (Option.some.inj (hk₀.symm.trans hcall))
      exact absurd hk hfinishes.tells.1
    | tells hk₀ hk' _ hturn =>
      obtain ⟨rfl, rfl⟩ := Prod.mk.inj (Option.some.inj (hk₀.symm.trans hcall))
      exact Or.inr (Or.inr ⟨_, ⟨b, hb, hk'⟩, hturn⟩)
    | aside hp' hnone => exact Or.inr (Or.inl (done_of_aside hb hp' hnone))

theorem Done.step (h : w.Done n) (hstep : Step v w e w') : w'.Done n := by
  obtain ⟨a, ha, hdone⟩ := h
  cases follows_of_step hstep n with
  | same h => exact ⟨a, h.trans ha, hdone⟩
  | arrives _ h => exact absurd (h.symm.trans ha) nofun
  | ends _ h' => exact done_of_none h'
  | @advances a' b ha' hb hadvance =>
    obtain rfl := Option.some.inj (ha.symm.trans ha')
    obtain ⟨hquiet, hnone⟩ := hdone a' rfl
    cases hadvance with
    | quiet hp => exact absurd hp hquiet
    | finishes hk | tells hk => exact absurd (hnone.symm.trans hk) nofun
    | aside hp' hnone' => exact done_of_aside hb hp' hnone'

/-! ### Sessions that were made before -/

/-- A handler will take out the session of a repository, or the table has only sessions from later on. -/
structure Renews (w : ServiceWorld) (n : Nat) (k : CheckoutCall) (size : Nat) : Prop where
  le : size ≤ w.state.sessions.all.length
  table : w.Done n ∨ w.Works n k none ∨ ∀ m, (k.key, m) ∈ w.state.sessions.table → size ≤ m

theorem Renews.step {size : Nat} (h : w.Renews n k size) (hk : k.Tells) (hstep : Step v w e w') :
    w'.Renews n k size := by
  have hevolves := evolves_of_step hstep
  refine ⟨Nat.le_trans h.le hevolves.size, ?_⟩
  rcases h.table with hdone | hworks | htable
  · exact Or.inl (hdone.step hstep)
  · rcases hworks.step hk hstep with hworks' | hdone | ⟨y, -, hturn⟩
    · exact Or.inr (Or.inl hworks')
    · exact Or.inl hdone
    · have hnone := (Eviction.not_mem_turnFor_none _ _ _ _).moved hturn
      exact Or.inr (Or.inr fun m hm ↦ absurd hm (hnone m))
  · refine Or.inr (Or.inr fun m hm ↦ ?_)
    rcases hevolves.table k.key m hm with hm | ⟨hnew, -⟩
    · exact htable m hm
    · exact Nat.le_trans h.le hnew

theorem Renews.run {size : Nat} (h : w.Renews n k size) (hk : k.Tells) (hrun : Run (Step v) w t w') :
    w'.Renews n k size :=
  hrun.invariant (P := fun _ w ↦ w.Renews n k size) h fun _ _ _ _ _ h hstep ↦ h.step hk hstep

/-! ### Sessions that were taken out -/

/-- A handler is closing a session that it has taken out, or is done. -/
def Charged (w : ServiceWorld) (n : Nat) (k : CheckoutCall) (m : Nat) : Prop :=
  w.Done n ∨ ∃ y, w.Works n k (some y) ∧ m ∈ y.closings.map Prod.fst ∧ y.Closes w.state.sessions

theorem Charged.step (h : w.Charged n k m) (hk : k.Tells) (hstep : Step v w e w') :
    w'.Charged n k m := by
  rcases h with hdone | ⟨y, hworks, hm, hcloses⟩
  · exact Or.inl (hdone.step hstep)
  · have hlasting := (evolves_of_step hstep).closed
    rcases hworks.step hk hstep with hworks' | hdone | ⟨y', hworks', hturn⟩
    · exact Or.inr ⟨y, hworks', hm, hcloses.of_closed hlasting⟩
    · exact Or.inl hdone
    · obtain ⟨hsame, hcloses'⟩ := hcloses.of_turn hturn hlasting
      exact Or.inr ⟨y', hworks', hsame ▸ hm, hcloses'⟩

theorem Charged.run (h : w.Charged n k m) (hk : k.Tells) (hrun : Run (Step v) w t w') :
    w'.Charged n k m :=
  hrun.invariant (P := fun _ w ↦ w.Charged n k m) h fun _ _ _ _ _ h hstep ↦ h.step hk hstep

/-- A session is no longer in the table. -/
def Takes (w w' : ServiceWorld) (m : Nat) : Prop :=
  ∃ key, (key, m) ∈ w.state.sessions.table ∧ (key, m) ∉ w'.state.sessions.table

/-- A handler that has taken out a session is closing it, or is done. -/
theorem charged_of_acts (htabled : w.Tabled) (hacts : Acts v n w e w') (htakes : w.Takes w' m) :
    w'.Done n ∨ ∃ k, k.Tells ∧ w'.Charged n k m := by
  obtain ⟨key, hm, hm'⟩ := htakes
  have hsame : w'.state.sessions ≠ w.state.sessions := fun heq ↦ hm' (heq ▸ hm)
  obtain ⟨a, ha, hnone | ⟨b, hb, hadvance⟩⟩ := hacts.advance
  · exact Or.inl (done_of_none hnone)
  · cases hadvance with
    | quiet _ _ _ hs => exact absurd hs hsame
    | finishes _ _ _ _ hs => exact absurd hs hsame
    | tells hk hk' htells hturn =>
      obtain ⟨hmem, hcloses⟩ := Eviction.closes_of_taken (fun _ _ ↦ htabled.exists_session)
        htabled.find?_eq hturn hm hm'
      exact Or.inr ⟨_, htells, Or.inr ⟨_, ⟨b, hb, hk'⟩, hmem, hcloses⟩⟩
    | aside hp' hnone => exact Or.inl (done_of_aside hb hp' hnone)

/-- A handler that returns from a call on a checkout has closed the sessions that it has taken out
before. -/
theorem closed_of_charged {k₀ : CheckoutCall} {s : ServiceState} {any : Bool}
    (h : w.Charged n k₀ m) (hworks : w.Works n k x)
    (hturn : Eviction.turnFor w.state.fs w.now k.key x w.state.sessions = .finished any s.sessions) :
    ∃ a, s.sessions.session? m = some a ∧ a.state = .closed := by
  rcases h with hdone | ⟨y, hworks', hm, hcloses⟩
  · exact absurd hworks hdone.not_works
  · obtain ⟨rfl, rfl⟩ := hworks.unique hworks'
    exact hcloses.closed_of_turn hturn ((Sessions.evolves_turnFor ..).finished hturn).closed hm

/-! ### Calls that do no work -/

/-- A handler that is no longer quiet. -/
def Stirred (w : ServiceWorld) (n : Nat) : Prop :=
  ∃ a, w.handlers[n]? = some a ∧ ∀ h, a = some h → ¬ h.phase.Quiet

theorem stirred_of_none (h : w.handlers[n]? = some none) : w.Stirred n :=
  ⟨none, h, fun _ heq ↦ (by cases heq)⟩

theorem stirred_of_some {a : Handler} (h : w.handlers[n]? = some (some a)) (hquiet : ¬ a.phase.Quiet) :
    w.Stirred n :=
  ⟨some a, h, fun _ heq ↦ Option.some.inj heq ▸ hquiet⟩

theorem Stirred.step (h : w.Stirred n) (hstep : Step v w e w') : w'.Stirred n := by
  obtain ⟨a, ha, hstirred⟩ := h
  cases follows_of_step hstep n with
  | same h => exact ⟨a, h.trans ha, hstirred⟩
  | arrives _ h => exact absurd (h.symm.trans ha) nofun
  | ends _ h' => exact stirred_of_none h'
  | @advances a' b ha' hb hadvance =>
    refine stirred_of_some hb ?_
    cases hadvance with
    | quiet hp => exact absurd hp (hstirred a' (Option.some.inj (ha.symm.trans ha')))
    | finishes _ hk' hfinishes => exact HandlerPhase.not_quiet_of_tells hk' hfinishes.tells.2.1
    | tells _ hk' htells => exact HandlerPhase.not_quiet_of_tells hk' htells
    | aside hp' => exact hp'

/-- A turn of a handler that is still quiet later has left sessions alone. -/
theorem sessions_of_acts (hacts : Acts v n w e w') (hquiet : ¬ w'.Stirred n) :
    w'.state.sessions = w.state.sessions := by
  obtain ⟨a, ha, hnone | ⟨b, hb, hadvance⟩⟩ := hacts.advance
  · exact absurd (stirred_of_none hnone) hquiet
  · cases hadvance with
    | quiet _ _ _ hs => exact hs
    | finishes _ hk' hfinishes =>
      exact absurd (stirred_of_some hb (HandlerPhase.not_quiet_of_tells hk' hfinishes.tells.2.1)) hquiet
    | tells _ hk' htells =>
      exact absurd (stirred_of_some hb (HandlerPhase.not_quiet_of_tells hk' htells)) hquiet
    | aside hp' => exact absurd (stirred_of_some hb hp') hquiet

/-- Calls on checkouts say that they do something. -/
theorem acting_of_run (h : Run (Step v) (create root options checkouts) t w) {a : Handler}
    (ha : w.handlers[n]? = some (some a)) : a.phase.Acting := by
  induction h generalizing a with
  | nil => simp [create] at ha
  | snoc hu hstep ih =>
    cases follows_of_step hstep n with
    | same h => exact ih (h ▸ ha)
    | arrives message _ h' =>
      obtain rfl := Option.some.inj (Option.some.inj (h'.symm.trans ha))
      exact HandlerPhase.acting_of_none rfl
    | ends _ h' => exact absurd (Option.some.inj (h'.symm.trans ha)) (by simp)
    | @advances b b' hb h' hadvance =>
      obtain rfl := Option.some.inj (Option.some.inj (h'.symm.trans ha))
      cases hadvance with
      | quiet _ _ hacting => exact hacting (ih hb)
      | finishes _ _ _ hacting => exact hacting (ih hb)
      | tells hk hk' =>
        intro k₁ x₁ hk₁
        obtain ⟨rfl, -⟩ := Prod.mk.inj (Option.some.inj (hk'.symm.trans hk₁))
        exact ih hb _ _ hk
      | aside _ hnone => exact HandlerPhase.acting_of_none hnone

/-! ### What sessions are like when a call returns -/

/-- The checkout of a call changes in a step. -/
def Changes (n : Nat) (k : CheckoutCall) (w w' : ServiceWorld) : Prop :=
  ∃ k₀ x, w.Works n k₀ x ∧ k₀.Finishes k ∧ w'.Works n k none

/-- What sessions are like in `s` when a call of a handler returns that has changed its checkout. -/
structure Invalidated (v : Service) (start : ServiceWorld) (t : List ServiceEvent) (w : ServiceWorld)
    (n : Nat) (k : CheckoutCall) (s : ServiceState) : Prop where
  /-- The checkout has changed. -/
  changed : ∃ u e u', Through (Step v) start t w u e u' ∧ Changes n k u u'
  /-- The table has no session of the repository that was made before. -/
  renewed : ∀ u e u' m, Through (Step v) start t w u e u' → Changes n k u u' →
    (k.key, m) ∈ s.sessions.table → u'.state.sessions.all.length ≤ m
  /-- Sessions that the handler has taken out are closed. -/
  closed : ∀ u e u' m, Through (Step v) start t w u e u' → Acts v n u e u' → u.Takes u' m →
    ∃ a, s.sessions.session? m = some a ∧ a.state = .closed
  /-- So is a session that it takes out with its last turn. -/
  closedLast : ∀ m, w.Takes { w with state := s } m →
    ∃ a, s.sessions.session? m = some a ∧ a.state = .closed

/-- No turn of a handler has done anything to sessions. -/
structure Untouched (v : Service) (start : ServiceWorld) (t : List ServiceEvent) (w : ServiceWorld)
    (n : Nat) (s : ServiceState) : Prop where
  before : ∀ u e u', Through (Step v) start t w u e u' → Acts v n u e u' →
    u'.state.sessions = u.state.sessions
  last : s.sessions = w.state.sessions

/-- A call that waits until sessions are told has changed its checkout. -/
theorem exists_changes_of_run (h : Run (Step v) (create root options checkouts) t w)
    (hworks : w.Works n k x) (hk : k.Tells) : ∃ u e u',
      Through (Step v) (create root options checkouts) t w u e u' ∧ Changes n k u u' := by
  induction h generalizing x with
  | nil =>
    obtain ⟨a, ha, -⟩ := hworks
    simp [create] at ha
  | @snoc t e u w hu hstep ih =>
    have hkept : (∃ a e' b, Through (Step v) (create root options checkouts) t u a e' b ∧
        Changes n k a b) → ∃ a e' b,
          Through (Step v) (create root options checkouts) (t ++ [e]) w a e' b ∧ Changes n k a b := by
      rintro ⟨a, e', b, hthrough, hchanges⟩
      exact ⟨a, e', b, hthrough.snoc hstep, hchanges⟩
    rcases hworks.of_step hstep hk with hbefore | ⟨k₀, x₀, hbefore, hfinishes, rfl⟩ |
      ⟨x₀, y, hbefore, -, -⟩
    · exact hkept (ih hbefore)
    · exact ⟨u, e, w, hu.through_last hstep, k₀, x₀, hbefore, hfinishes, hworks⟩
    · exact hkept (ih hbefore)

/-- When a call returns that has changed its checkout, the table has no session of its repository that
was made before the checkout had changed, and the sessions that were taken out for it are closed. A call
that has not changed its checkout has left all sessions alone. -/
theorem invalidated_of_run {news : HandlerNews} {report : CheckoutReport} {s : ServiceState}
    (h : Run (Step v) (create root options checkouts) t w) (hworks : w.Works n k x)
    (hturn : k.tellingTurn v.sync w.now news x w.state = .finished report s) :
    (k.DidWork report → Invalidated v (create root options checkouts) t w n k s) ∧
      (¬ k.DidWork report → Untouched v (create root options checkouts) t w n s) := by
  obtain ⟨a, ha, hcall⟩ := hworks
  have hworks : w.Works n k x := ⟨a, ha, hcall⟩
  obtain ⟨⟨c, told, c', hreturns⟩, hcases⟩ := CheckoutCall.tellingTurn_eq_finished hturn
  have hdid := hreturns.didWork_iff (acting_of_run h ha k x hcall)
  rw [hdid]
  rcases hcases with ⟨hk, hs⟩ | ⟨hk, any, r, rfl, hword⟩
  · refine ⟨fun htells ↦ absurd htells hk, fun _ ↦ ⟨fun u e u' hthrough hacts ↦ ?_, hs⟩⟩
    obtain ⟨before, after, -, -, -, hafter⟩ := hthrough
    refine sessions_of_acts hacts fun hstirred ↦ ?_
    obtain ⟨b, hb, hquiet⟩ := hafter.invariant (P := fun _ w ↦ w.Stirred n) hstirred
      fun _ _ _ _ _ h hstep ↦ h.step hstep
    obtain rfl := Option.some.inj (ha.symm.trans hb)
    obtain ⟨request, heq⟩ := HandlerPhase.exists_ofCheckout hcall
    exact hquiet a rfl (heq ▸ HandlerPhase.quiet_ofCheckout.mpr hk)
  · refine ⟨fun _ ↦ ⟨exists_changes_of_run h hworks hk, ?_, ?_, ?_⟩, fun hno ↦ absurd hk hno⟩
    · rintro u e u' m ⟨before, after, -, hbefore, hstep, hafter⟩ ⟨k₀, x₀, -, -, hu'⟩ hm
      have hrenews : u'.Renews n k u'.state.sessions.all.length := ⟨Nat.le_refl _, Or.inr (Or.inl hu')⟩
      have hevolves := (Sessions.evolves_turnFor _ _ _ _ _).finished hword
      obtain ⟨hle, hdone | hw | htable⟩ := hrenews.run hk hafter
      · exact absurd hworks hdone.not_works
      · obtain ⟨-, rfl⟩ := hworks.unique hw
        exact absurd hm ((Eviction.not_mem_turnFor_none _ _ _ _).finished hword m)
      · rcases hevolves.table k.key m hm with hm | ⟨hnew, -⟩
        · exact htable m hm
        · exact Nat.le_trans hle hnew
    · rintro u e u' m ⟨before, after, -, hbefore, hstep, hafter⟩ hacts htakes
      rcases charged_of_acts (tabled_of_run hbefore) hacts htakes with hdone | ⟨k₀, hk₀, hcharged⟩
      · have hdone := hafter.invariant (P := fun _ w ↦ w.Done n) hdone
          fun _ _ _ _ _ h hstep ↦ h.step hstep
        exact absurd hworks hdone.not_works
      · exact closed_of_charged (hcharged.run hk₀ hafter) hworks hword
    · rintro m ⟨key, hm, hm'⟩
      have htabled := tabled_of_run h
      exact Eviction.closed_of_taken (fun _ _ ↦ htabled.exists_session) htabled.find?_eq hword hm hm'

/-! ### An example -/

/-- Checkouts are in one folder, and nothing is built. -/
def plainService : Service := ⟨.plain, ⟨⟨"/s"⟩, .usual⟩, 0⟩

/-- A page asks for a checkout; while it is being cloned, another page opens a file of the repository. -/
def cloningMoves : List ServiceMove :=
  [.arrive ⟨"checkoutRepository", .ofFields [("url", .string "https://h/a/b")], none⟩, .go 0, .go 0,
    .go 0, .go 0, .go 0, .go 0, .go 0, .arrive (openingMessage "m.c" "int m;"), .go 1, .go 1, .go 1,
    .hear 0 (.ok ⟨some 0⟩)]

/-- The call of a handler is about to return, has changed its checkout, and takes the only session out. -/
def takesLast (w : ServiceWorld) (h : Handler) : Bool :=
  match h.phase.checkout? with
  | some (k, none) =>
    match k.tellingTurn .plain w.now .nothing none w.state with
    | .finished report s =>
      report.changed && !k.shares && (w.state.sessions.size = 1 && s.sessions.size = 0)
    | _ => false
  | _ => false

/-- The session that was made while the checkout was being cloned is taken out before the call returns. -/
theorem invalidated_cloned : ∃ t w k s report,
    Run (Step plainService) (create ⟨"/c"⟩ default ⟨⟨[]⟩, .none, .empty⟩) t w ∧ w.Works 0 k none ∧
      k.tellingTurn .plain w.now .nothing none w.state = .finished report s ∧ k.DidWork report ∧
      w.state.sessions.size = 1 ∧ s.sessions.size = 0 ∧
      Invalidated plainService (create ⟨"/c"⟩ default ⟨⟨[]⟩, .none, .empty⟩) t w 0 k s := by
  obtain ⟨t, w, hrun, hcheck⟩ := exists_run_of_play (move plainService) (fun _ _ _ _ ↦ step_of_move)
    (create ⟨"/c"⟩ default ⟨⟨[]⟩, .none, .empty⟩) cloningMoves
    (fun _ w ↦ (w.handlers[0]?).join.any fun h ↦ w.takesLast h) (by decide +kernel)
  obtain ⟨h, hjoin, hcheck⟩ := (Option.any_eq_true ..).mp hcheck
  have hh : w.handlers[0]? = some (some h) := Option.join_eq_some_iff.mp hjoin
  unfold takesLast at hcheck
  split at hcheck
  · rename_i k hcall
    split at hcheck
    · rename_i report s hturn
      simp only [Bool.and_eq_true, decide_eq_true_eq, Bool.not_eq_true'] at hcheck
      obtain ⟨hdid, hsize, hsize'⟩ := hcheck
      exact ⟨t, w, k, s, report, hrun, ⟨h, hh, hcall⟩, hturn, hdid, hsize, hsize',
        (invalidated_of_run hrun ⟨h, hh, hcall⟩ hturn).1 hdid⟩
    · cases hcheck
  · cases hcheck

end ServiceWorld

end CodeNav
