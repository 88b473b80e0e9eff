import CodeNav.Proofs.Browser.Doings
import CodeNav.Proofs.Browser.Service

/-!
# How sessions evolve under requests

Whatever requests arrive, and in whatever order their handlers go on or are given up: no session is
forgotten, one that is closed stays closed, and what comes into the table of sessions that may be handed
out has just been made.

## Main definitions

* `ServiceState.Evolves`: what handlers share, and what may become of the sessions in it
* `ServiceWorld.Acts`: a turn of a handler
* `ServiceWorld.Tabled`: what is true of the table

## Main statements

* `Handler.evolves_drop`: what giving up a handler does to sessions
* `ServiceWorld.evolves_of_step`, `ServiceWorld.evolves_of_run`: what becomes of sessions
* `ServiceWorld.tabled_of_run`: the table has one session for a key, which was made before
-/

namespace CodeNav

/-- The sessions may have become those of another state. -/
def ServiceState.Evolves (s s' : ServiceState) : Prop := s.sessions.Evolves s'.sessions

namespace ServiceState

variable {s s' s'' : ServiceState}

theorem Evolves.trans (h : s.Evolves s') (h' : s'.Evolves s'') : s.Evolves s'' :=
  Sessions.Evolves.trans h h'

/-- The sessions are as they were. -/
theorem evolves_of_sessions (h : s'.sessions = s.sessions) : s.Evolves s' := by
  rw [Evolves, h]
  exact .refl _

end ServiceState

namespace Handler

open ServiceState (evolves_of_sessions)

/-- What giving up a handler does to sessions. -/
theorem evolves_drop (h : Handler) (s : ServiceState) : s.Evolves (h.drop s) :=
  h.drop_induction (P := s.sessions.Evolves) (.refl _) fun r n phase hevolves ↦
    hevolves.trans (r.evolves_dropOn n phase)

end Handler

/-! ### What becomes of sessions -/

namespace ServiceWorld

variable {v : Service} {w w' : ServiceWorld} {e : ServiceEvent} {t : List ServiceEvent} {n : Nat}
  {root : Path} {options : SessionOptions} {checkouts : Checkouts}

/-- A turn of the handler with a number. -/
inductive Acts (v : Service) (n : Nat) (w : ServiceWorld) : ServiceEvent → ServiceWorld → Prop
  | moved {h h' : Handler} {s : ServiceState} (strand : Nat) (news : HandlerNews)
      (hn : w.handlers[n]? = some (some h)) (hturn : h.turn v w.now strand news w.state = .moved h' s) :
      Acts v n w .other { w with state := s, handlers := w.handlers.set n (some h') }
  | finished {h : Handler} {reply : Reply} {s : ServiceState} (strand : Nat) (news : HandlerNews)
      (hn : w.handlers[n]? = some (some h))
      (hturn : h.turn v w.now strand news w.state = .finished reply s) :
      Acts v n w (.replied n reply) { w with state := s, handlers := w.handlers.set n none }

theorem Acts.step (h : Acts v n w e w') : Step v w e w' := by
  cases h with
  | moved strand news hn hturn => exact .turn strand news hn hturn
  | finished strand news hn hturn => exact .finish strand news hn hturn

/-- What a step does to sessions. -/
theorem evolves_of_step (h : Step v w e w') : w.state.Evolves w'.state := by
  cases h with
  | arrive | change | pass => exact ServiceState.evolves_of_sessions rfl
  | @turn k h h' s strand news hk hturn =>
    exact (Handler.does_of_moved True hturn (Or.inl True.intro)).evolves
  | @finish k h reply s strand news hk hturn =>
    exact (Handler.does_of_finished True hturn (Or.inl True.intro)).evolves
  | @drop k h hk => exact h.evolves_drop w.state
  | inside h => exact Sessions.evolves_background h

/-- What becomes of sessions in a run. -/
theorem evolves_of_run (h : Run (Step v) w t w') : w.state.Evolves w'.state := by
  induction h with
  | nil => exact ServiceState.evolves_of_sessions rfl
  | snoc _ hstep ih => exact ih.trans (evolves_of_step hstep)

/-- The table has one session for a key, which is one of those that were made. -/
structure Tabled (w : ServiceWorld) : Prop where
  keys : (w.state.sessions.table.map Prod.fst).Nodup
  lt : ∀ key n, (key, n) ∈ w.state.sessions.table → n < w.state.sessions.all.length

theorem tabled_create (root : Path) (options : SessionOptions) (checkouts : Checkouts) :
    (create root options checkouts).Tabled :=
  ⟨List.nodup_nil, by simp [create, Sessions.none]⟩

theorem Tabled.of_evolves (h : w.Tabled) (hevolves : w.state.Evolves w'.state) : w'.Tabled where
  keys := hevolves.keys h.keys
  lt key n hmem := by
    rcases hevolves.table key n hmem with hmem | ⟨-, hlt⟩
    · exact Nat.lt_of_lt_of_le (h.lt key n hmem) hevolves.size
    · exact hlt

theorem tabled_of_run (h : Run (Step v) (create root options checkouts) t w) : w.Tabled :=
  (tabled_create root options checkouts).of_evolves (evolves_of_run h)

/-- A session in the table is there. -/
theorem Tabled.exists_session (h : w.Tabled) {key : RepositoryKey}
    (hmem : (key, n) ∈ w.state.sessions.table) : ∃ s, w.state.sessions.session? n = some s :=
  ⟨_, List.getElem?_eq_getElem (h.lt key n hmem)⟩

/-- What is found in the table. -/
theorem Tabled.find?_eq (h : w.Tabled) {key : RepositoryKey}
    (hmem : (key, n) ∈ w.state.sessions.table) : w.state.sessions.find? key = some n := by
  cases hfind : w.state.sessions.find? key with
  | none => exact absurd rfl (bne_iff_ne.mp (List.lookup_eq_none_iff.mp hfind _ hmem))
  | some m =>
    have hm := Sessions.mem_table_of_find? hfind
    exact congrArg some (Prod.mk.inj (List.inj_on_of_nodup_map h.keys hm hmem rfl)).2

/-- A session that is closed stays closed. -/
theorem closed_of_run (h : Run (Step v) w t w') {s : Session} (hs : w.session? n = some s)
    (hclosed : s.state = .closed) : ∃ s', w'.session? n = some s' ∧ s'.state = .closed := by
  obtain ⟨s', hs', hlasts⟩ := (evolves_of_run h).closed n s hs
  exact ⟨s', hs', hlasts hclosed⟩

end ServiceWorld

end CodeNav
