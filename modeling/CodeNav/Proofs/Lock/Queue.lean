import CodeNav.Proofs.Lock.Slots

/-!
# Waiting in a slot

Every call that is under way has a ticket in the queue of its slot, and no two calls in a slot have
the same one. Who works has the ticket at the head of the queue. As callers who took a slot for the
same path are in one slot, at most one call works on a path.

## Main definitions

* `LockWorld.Active`: a call that is under way
* `LockWorld.Effect`: what the steps do to the locks and the calls
* `LockWorld.Queued`: the invariant of the queues

## Main statements

* `LockWorld.Step.effect`: every step has one of these effects
* `LockWorld.Tabled.step`, `LockWorld.Queued.step`: every step keeps the invariants
* `LockWorld.Queued.works_unique`: at most one call works on a path
-/

namespace CodeNav

namespace PathLocks

variable {α : Type} {l : PathLocks α} {place : Place}

/-- A place that has come to something has the ticket at the head of the queue. -/
theorem admission_ne_notYet (h : l.admission place ≠ .notYet) :
    ∃ s, l.slot? place.slot = some s ∧ s.gate.isHolder place.ticket = true := by
  simp only [admission] at h
  split at h
  · exact absurd rfl h
  · rename_i s hs
    split at h
    · rename_i hfirst
      exact ⟨s, hs, hfirst⟩
    · exact absurd rfl h

/-- A place is granted when no exclusive work has been finished since its caller arrived. -/
theorem admission_eq_granted (h : l.admission place = .granted) :
    ∃ s, l.slot? place.slot = some s ∧ s.gate.isHolder place.ticket = true ∧
      (s.last = Option.none ∨ s.generation = place.seen) := by
  simp only [admission] at h
  split at h
  · simp at h
  · rename_i s hs
    split at h
    · rename_i hfirst
      refine ⟨s, hs, hfirst, ?_⟩
      split at h
      · split at h
        · simp at h
        · rename_i hgen
          exact Or.inr (Decidable.not_not.mp hgen)
      · rename_i hlast
        exact Or.inl hlast
    · simp at h

/-- A place is overtaken by the latest outcome when exclusive work has been finished since its caller
arrived. -/
theorem admission_eq_overtaken {x : α} (h : l.admission place = .overtaken x) :
    ∃ s, l.slot? place.slot = some s ∧ s.gate.isHolder place.ticket = true ∧
      s.last = some x ∧ s.generation ≠ place.seen := by
  simp only [admission] at h
  split at h
  · simp at h
  · rename_i s hs
    split at h
    · rename_i hfirst
      split at h
      · rename_i y hlast
        split at h
        · rename_i hgen
          obtain rfl : y = x := by simpa using h
          exact ⟨s, hs, hfirst, hlast, hgen⟩
        · simp at h
      · simp at h
    · simp at h

end PathLocks

namespace LockCall

variable {α β : Type} {l l' : PathLocks α} {ph ph' : LockCall}

theorem exclusiveTurn_eq_moved {o : Option α} (h : ph.exclusiveTurn o l = .moved ph' l') :
    ∃ place, ph = .waiting place ∧ l.admission place = .granted ∧ ph' = .working place ∧ l' = l := by
  cases ph with
  | waiting place =>
    simp only [exclusiveTurn] at h
    split at h <;> simp_all
  | working place => cases o <;> simp [exclusiveTurn] at h

theorem exclusiveTurn_waiting_eq_finished {place : PathLocks.Place} {o : Option α} {r : Exclusive α}
    (h : (waiting place).exclusiveTurn o l = .finished r l') :
    ∃ x, l.admission place = .overtaken x ∧ r = .joined x ∧ l' = l.leave place := by
  simp only [exclusiveTurn] at h
  split at h
  · simp at h
  · simp at h
  · rename_i x hx
    simp only [Turn.finished.injEq] at h
    exact ⟨x, hx, h.1.symm, h.2.symm⟩

theorem exclusiveTurn_working_eq_finished {place : PathLocks.Place} {x : α} {r : Exclusive α}
    (h : (working place).exclusiveTurn (some x) l = .finished r l') :
    r = .ran x ∧ l' = l.finish place x := by
  simp only [exclusiveTurn, Turn.finished.injEq] at h
  exact ⟨h.1.symm, h.2.symm⟩

theorem apartTurn_eq_moved {o : Option β} (h : ph.apartTurn o l = .moved ph' l') :
    ∃ place, ph = .waiting place ∧ l.admission place ≠ .notYet ∧ ph' = .working place ∧ l' = l := by
  cases ph with
  | waiting place =>
    simp only [apartTurn] at h
    split at h <;> simp_all
  | working place => cases o <;> simp [apartTurn] at h

theorem apartTurn_working_eq_finished {place : PathLocks.Place} {y r : β}
    (h : (working place).apartTurn (some y) l = .finished r l') : l' = l.leave place := by
  simp only [apartTurn, Turn.finished.injEq] at h
  exact h.2.symm

end LockCall

namespace LockWorld

variable {α : Type} {w w' : LockWorld α} {e : LockEvent α}

/-- A call that is under way. -/
def Active (w : LockWorld α) (c : Nat) (k : LockEntry) (ph : LockCall) : Prop :=
  w.calls[c]? = some k ∧ k.phase = some ph

/-- What the steps do to the locks and the calls. -/
inductive Effect (w : LockWorld α) : LockEvent α → LockWorld α → Prop
  | take (p : Path) :
      Effect w (.took w.handles.length p)
        { w with
          locks := (w.locks.hold p).2
          handles := w.handles ++ [some ⟨p, (w.locks.hold p).1⟩] }
  | letGo {h : Nat} {a : LockHandle} (hh : w.handles[h]? = some (some a))
      (hidle : ∀ k ∈ w.calls, k.handle = h → k.phase = none) :
      Effect w (.letGo h)
        { w with locks := w.locks.release a.slot, handles := w.handles.set h none }
  | call {h : Nat} {a : LockHandle} (exclusive : Bool) (hh : w.handles[h]? = some (some a)) :
      Effect w (.called w.calls.length a.path exclusive)
        { w with
          locks := (w.locks.arrive a.slot).2
          calls := w.calls ++
            [⟨h, a.path, exclusive, some (.waiting (w.locks.arrive a.slot).1)⟩] }
  /-- A call whose work may begin is the first in its slot, and if the work is exclusive, no other
  such work was finished since the call arrived. -/
  | enter {c : Nat} {k : LockEntry} {place : PathLocks.Place} {s : Slot α}
      (hk : w.Active c k (.waiting place)) (hs : w.locks.slot? place.slot = some s)
      (hfirst : s.gate.isHolder place.ticket = true)
      (hnew : k.exclusive = true → s.last = none ∨ s.generation = place.seen) :
      Effect w (.entered c k.path k.exclusive) (w.advance c (some (.working place)) w.locks)
  /-- A call shares the latest outcome of work that was finished since it arrived. -/
  | share {c : Nat} {k : LockEntry} {place : PathLocks.Place} {s : Slot α} {x : α}
      (hk : w.Active c k (.waiting place)) (he : k.exclusive = true)
      (hs : w.locks.slot? place.slot = some s) (hlast : s.last = some x)
      (hgen : s.generation ≠ place.seen) :
      Effect w (.shared c k.path (.joined x)) (w.advance c none (w.locks.leave place))
  | complete {c : Nat} {k : LockEntry} {place : PathLocks.Place} (x : α)
      (hk : w.Active c k (.working place)) (he : k.exclusive = true) :
      Effect w (.ended c k.path x (.ran x)) (w.advance c none (w.locks.finish place x))
  | leave {c : Nat} {k : LockEntry} {place : PathLocks.Place}
      (hk : w.Active c k (.working place)) (he : k.exclusive = false) :
      Effect w (.left c k.path) (w.advance c none (w.locks.leave place))
  | drop {c : Nat} {k : LockEntry} {ph : LockCall} (hk : w.Active c k ph) :
      Effect w (.dropped c k.path) (w.advance c none (w.locks.leave ph.place))

/-- Every step has one of the effects. -/
theorem Step.effect (h : Step w e w') : Effect w e w' := by
  cases h with
  | take p => exact .take p
  | letGo hh hidle => exact .letGo hh hidle
  | call exclusive hh => exact .call exclusive hh
  | enter hk hph he hturn =>
    obtain ⟨place, rfl, hgranted, rfl, rfl⟩ := LockCall.exclusiveTurn_eq_moved hturn
    obtain ⟨s, hs, hfirst, hnew⟩ := PathLocks.admission_eq_granted hgranted
    exact .enter ⟨hk, hph⟩ hs hfirst fun _ ↦ hnew
  | enterApart hk hph he hturn =>
    obtain ⟨place, rfl, hadmitted, rfl, rfl⟩ := LockCall.apartTurn_eq_moved hturn
    obtain ⟨s, hs, hfirst⟩ := PathLocks.admission_ne_notYet hadmitted
    exact .enter ⟨hk, hph⟩ hs hfirst fun h ↦ absurd (he.symm.trans h) (by simp)
  | share hk hph he hturn =>
    obtain ⟨x, hover, rfl, rfl⟩ := LockCall.exclusiveTurn_waiting_eq_finished hturn
    obtain ⟨s, hs, -, hlast, hgen⟩ := PathLocks.admission_eq_overtaken hover
    exact .share ⟨hk, hph⟩ he hs hlast hgen
  | complete x hk hph he hturn =>
    obtain ⟨rfl, rfl⟩ := LockCall.exclusiveTurn_working_eq_finished hturn
    exact .complete x ⟨hk, hph⟩ he
  | leave hk hph he hturn =>
    obtain rfl := LockCall.apartTurn_working_eq_finished hturn
    exact .leave ⟨hk, hph⟩ he
  | drop hk hph => exact .drop ⟨hk, hph⟩

/-! ### The table -/

theorem tabled_empty : (empty : LockWorld α).Tabled where
  paths := List.nodup_nil
  slots := List.nodup_nil
  made e he := by simp [empty, PathLocks.none] at he
  found a ha := by simp [empty] at ha
  counted n s hs := by simp [empty, PathLocks.none, PathLocks.slot?] at hs

theorem arrive_eq {l : PathLocks α} {n : Nat} {s : Slot α} (hs : l.slot? n = some s) :
    l.arrive n =
      (⟨n, s.gate.enter.1, s.generation⟩,
        l.change n fun s ↦ { s with gate := s.gate.enter.2 }) := by
  simp only [PathLocks.arrive, hs]

/-- Every step keeps the invariant of the table. -/
theorem Tabled.step (h : w.Tabled) (hstep : Step w e w') : w'.Tabled := by
  cases hstep.effect with
  | take p => exact h.take p
  | letGo hh _ => exact h.letGo hh
  | call exclusive hh =>
    obtain ⟨s, hs, -⟩ := h.slot?_eq_some (List.mem_of_getElem? hh)
    rw [arrive_eq hs]
    exact h.change _ (by exact fun _ ↦ rfl) _
  | enter => exact ⟨h.paths, h.slots, h.made, h.found, h.counted⟩
  | share => exact h.change _ (by exact fun _ ↦ rfl) _
  | complete => exact h.change _ (by exact fun _ ↦ rfl) _
  | leave => exact h.change _ (by exact fun _ ↦ rfl) _
  | drop => exact h.change _ (by exact fun _ ↦ rfl) _

/-! ### The queues -/

theorem active_advance {c d : Nat} {phase : Option LockCall} {l : PathLocks α} {k : LockEntry}
    {ph : LockCall} (h : (w.advance c phase l).Active d k ph) :
    (d ≠ c ∧ w.Active d k ph) ∨
      (d = c ∧ phase = some ph ∧ ∃ k₀, w.calls[c]? = some k₀ ∧ k = { k₀ with phase := phase }) := by
  obtain ⟨hk, hph⟩ := h
  simp only [advance, List.getElem?_modify] at hk
  by_cases hd : c = d
  · subst hd
    cases hk₀ : w.calls[c]? with
    | none => simp [hk₀] at hk
    | some k₀ =>
      obtain rfl : { k₀ with phase := phase } = k := by simpa [hk₀] using hk
      exact Or.inr ⟨rfl, hph, k₀, rfl, rfl⟩
  · refine Or.inl ⟨fun h ↦ hd h.symm, ?_, hph⟩
    simpa [hd] using hk

/-- A call that is still under way is another one than that which is over. -/
theorem active_over {c d : Nat} {l : PathLocks α} {k : LockEntry} {ph : LockCall}
    (h : (w.advance c none l).Active d k ph) : d ≠ c ∧ w.Active d k ph := by
  rcases active_advance h with h | ⟨-, hph, -⟩
  · exact h
  · simp at hph

/-- A call is as it was, or has come to its new phase. -/
theorem active_moved {c d : Nat} {l : PathLocks α} {k k' : LockEntry} {ph ph' ph'' : LockCall}
    (hk : w.Active c k ph) (h : (w.advance c (some ph') l).Active d k' ph'') :
    (d ≠ c ∧ w.Active d k' ph'') ∨
      (d = c ∧ ph'' = ph' ∧ k' = { k with phase := some ph' }) := by
  rcases active_advance h with h | ⟨rfl, hph, k₀, hk₀, rfl⟩
  · exact Or.inl h
  · obtain rfl := Option.some.inj (hk.1.symm.trans hk₀)
    exact Or.inr ⟨rfl, (Option.some.inj hph).symm, rfl⟩

/-- Whoever is let in keeps its place. -/
theorem active_entered {c d : Nat} {k k' : LockEntry} {place : PathLocks.Place} {ph' : LockCall}
    (hk : w.Active c k (.waiting place))
    (h : (w.advance c (some (.working place)) w.locks).Active d k' ph') :
    ∃ k₀ ph₀, w.Active d k₀ ph₀ ∧ (k₀.handle = k'.handle ∧ k₀.path = k'.path ∧
      k₀.exclusive = k'.exclusive) ∧ ph₀.place = ph'.place ∧
        ((k₀ = k' ∧ ph₀ = ph') ∨ (k₀ = k ∧ ph' = .working place)) := by
  rcases active_moved hk h with ⟨-, hd⟩ | ⟨rfl, rfl, rfl⟩
  · exact ⟨k', ph', hd, ⟨rfl, rfl, rfl⟩, rfl, Or.inl ⟨rfl, rfl⟩⟩
  · exact ⟨k, _, hk, ⟨rfl, rfl, rfl⟩, rfl, Or.inr ⟨rfl, rfl⟩⟩

/-- A call is an old one, or has just arrived. -/
theorem active_concat {c : Nat} {l : PathLocks α} {k k₀ : LockEntry} {ph : LockCall}
    (h : Active { w with locks := l, calls := w.calls ++ [k₀] } c k ph) :
    w.Active c k ph ∨ (c = w.calls.length ∧ k = k₀ ∧ k₀.phase = some ph) := by
  obtain ⟨hk, hph⟩ := h
  rcases getElem?_concat_eq_some.mp hk with hk | ⟨hc, rfl⟩
  · exact Or.inl ⟨hk, hph⟩
  · exact Or.inr ⟨hc, rfl, hph⟩

/-- Who is under way has a ticket of its own, and who works has the first one. -/
structure Queued (w : LockWorld α) : Prop where
  gates : ∀ n s, w.locks.slot? n = some s → s.gate.WellFormed
  held : ∀ c k ph, w.Active c k ph → w.handles[k.handle]? = some (some ⟨k.path, ph.place.slot⟩)
  queued : ∀ c k ph s, w.Active c k ph → w.locks.slot? ph.place.slot = some s →
    ph.place.ticket ∈ s.gate.queue
  apart : ∀ c d k k' ph ph', w.Active c k ph → w.Active d k' ph' →
    ph.place.slot = ph'.place.slot → ph.place.ticket = ph'.place.ticket → c = d
  first : ∀ c k place s, w.Active c k (.working place) → w.locks.slot? place.slot = some s →
    s.gate.isHolder place.ticket = true

namespace Queued

/-- The slot of a call that is under way. -/
theorem slot?_eq_some (h : w.Queued) (ht : w.Tabled) {c : Nat} {k : LockEntry} {ph : LockCall}
    (hc : w.Active c k ph) : ∃ s, w.locks.slot? ph.place.slot = some s := by
  obtain ⟨s, hs, -⟩ := ht.slot?_eq_some (List.mem_of_getElem? (h.held c k ph hc))
  exact ⟨s, hs⟩

/-- Calls on the same path are in one slot. -/
theorem slot_eq (h : w.Queued) (ht : w.Tabled) {c d : Nat} {k k' : LockEntry} {ph ph' : LockCall}
    (hc : w.Active c k ph) (hd : w.Active d k' ph') (hp : k.path.same k'.path = true) :
    ph.place.slot = ph'.place.slot :=
  ht.slot_eq (List.mem_of_getElem? (h.held c k ph hc)) (List.mem_of_getElem? (h.held d k' ph' hd)) hp

/-- Calls in one slot are on the same path. -/
theorem path_same (h : w.Queued) (ht : w.Tabled) {c d : Nat} {k k' : LockEntry} {ph ph' : LockCall}
    (hc : w.Active c k ph) (hd : w.Active d k' ph') (hs : ph.place.slot = ph'.place.slot) :
    k.path.same k'.path = true :=
  ht.path_same (List.mem_of_getElem? (h.held c k ph hc)) (List.mem_of_getElem? (h.held d k' ph' hd))
    hs

/-- At most one call works on a path. -/
theorem works_unique (h : w.Queued) (ht : w.Tabled) {c d : Nat} {p q : Path} (hc : w.Works c p)
    (hd : w.Works d q) (hpq : p.same q = true) : c = d := by
  obtain ⟨k, place, hk, rfl, hph⟩ := hc
  obtain ⟨k', place', hk', rfl, hph'⟩ := hd
  have hslot := h.slot_eq ht ⟨hk, hph⟩ ⟨hk', hph'⟩ hpq
  obtain ⟨s, hs⟩ := h.slot?_eq_some ht ⟨hk, hph⟩
  have hfirst := h.first c k place s ⟨hk, hph⟩ hs
  have hfirst' := h.first d k' place' s ⟨hk', hph'⟩ (hslot ▸ hs)
  exact h.apart c d k k' _ _ ⟨hk, hph⟩ ⟨hk', hph'⟩ hslot (FairLock.holder_unique hfirst hfirst')

/-- Nothing changes for the calls while the queues stay as they are. -/
theorem of_gates (h : w.Queued) (ht : w.Tabled) {l : PathLocks α}
    {handles : List (Option LockHandle)}
    (hgates : ∀ n s, l.slot? n = some s →
      (∃ s₀, w.locks.slot? n = some s₀ ∧ s.gate = s₀.gate) ∨
        (w.locks.slot? n = none ∧ s.gate.WellFormed))
    (hhandles : ∀ c k ph, w.Active c k ph → handles[k.handle]? = w.handles[k.handle]?) :
    Queued { w with locks := l, handles := handles } where
  gates n s hs := by
    rcases hgates n s hs with ⟨s₀, hs₀, hgate⟩ | ⟨-, hwf⟩
    · exact hgate ▸ h.gates n s₀ hs₀
    · exact hwf
  held c k ph hc := (hhandles c k ph hc).trans (h.held c k ph hc)
  queued c k ph s hc hs := by
    rcases hgates _ s hs with ⟨s₀, hs₀, hgate⟩ | ⟨hnone, -⟩
    · exact hgate ▸ h.queued c k ph s₀ hc hs₀
    · obtain ⟨s₀, hs₀⟩ := h.slot?_eq_some ht hc
      exact absurd (hnone.symm.trans hs₀) (by simp)
  apart := h.apart
  first c k place s hc hs := by
    rcases hgates _ s hs with ⟨s₀, hs₀, hgate⟩ | ⟨hnone, -⟩
    · exact hgate ▸ h.first c k place s₀ hc hs₀
    · obtain ⟨s₀, hs₀⟩ := h.slot?_eq_some ht hc
      exact absurd (hnone.symm.trans hs₀) (by simp)

theorem take (h : w.Queued) (ht : w.Tabled) (p : Path) :
    Queued { w with
      locks := (w.locks.hold p).2
      handles := w.handles ++ [some ⟨p, (w.locks.hold p).1⟩] } := by
  refine h.of_gates ht ?_ fun c k ph hc ↦ List.getElem?_append_left
    (List.getElem?_eq_some_iff.mp (h.held c k ph hc)).1
  intro n s hs
  cases hfind : w.locks.find? p with
  | some m =>
    rw [PathLocks.hold_eq_of_find? hfind] at hs
    rcases PathLocks.slot?_change_eq_some.mp hs with ⟨-, s₀, hs₀, rfl⟩ | ⟨-, hs⟩
    · exact Or.inl ⟨s₀, hs₀, rfl⟩
    · exact Or.inl ⟨s, hs, rfl⟩
  | none =>
    rw [PathLocks.hold_eq_make hfind, PathLocks.slot?_make] at hs
    split at hs
    · rename_i hn
      obtain rfl : Slot.fresh = s := by simpa using hs
      refine Or.inr ⟨?_, FairLock.wellFormed_free⟩
      rw [hn, PathLocks.slot?, List.getElem?_eq_none (Nat.le_refl _)]
    · exact Or.inl ⟨s, hs, rfl⟩

theorem letGo (h : w.Queued) (ht : w.Tabled) {i n : Nat}
    (hidle : ∀ k ∈ w.calls, k.handle = i → k.phase = none) :
    Queued { w with locks := w.locks.release n, handles := w.handles.set i none } := by
  refine h.of_gates ht ?_ fun c k ph hc ↦ List.getElem?_set_ne fun hi ↦ ?_
  · intro m s hs
    rcases PathLocks.slot?_change_eq_some.mp hs with ⟨-, s₀, hs₀, rfl⟩ | ⟨-, hs⟩
    · exact Or.inl ⟨s₀, hs₀, rfl⟩
    · exact Or.inl ⟨s, hs, rfl⟩
  · have := hidle k (List.mem_of_getElem? hc.1) hi.symm
    exact absurd (hc.2.symm.trans this) (by simp)

theorem call (h : w.Queued) (ht : w.Tabled) {i : Nat} {a : LockHandle} (exclusive : Bool)
    (hi : w.handles[i]? = some (some a)) :
    Queued { w with
      locks := (w.locks.arrive a.slot).2
      calls := w.calls ++
        [⟨i, a.path, exclusive, some (.waiting (w.locks.arrive a.slot).1)⟩] } := by
  obtain ⟨s, hs, -⟩ := ht.slot?_eq_some (List.mem_of_getElem? hi)
  rw [arrive_eq hs]
  let place : PathLocks.Place := ⟨a.slot, s.gate.enter.1, s.generation⟩
  let l := w.locks.change a.slot fun s ↦ { s with gate := s.gate.enter.2 }
  let u : LockWorld α :=
    { w with locks := l, calls := w.calls ++ [⟨i, a.path, exclusive, some (.waiting place)⟩] }
  have hactive : ∀ c k ph, u.Active c k ph → w.Active c k ph ∨
      (c = w.calls.length ∧ k = ⟨i, a.path, exclusive, some (.waiting place)⟩ ∧
        ph = .waiting place) := by
    intro c k ph hc
    exact (active_concat hc).imp_right fun ⟨hc, hk, hph⟩ ↦ ⟨hc, hk, (Option.some.inj hph).symm⟩
  have hslot : ∀ n s', l.slot? n = some s' →
      (n = a.slot ∧ s' = { s with gate := s.gate.enter.2 }) ∨
        (n ≠ a.slot ∧ w.locks.slot? n = some s') := by
    intro n s' hs'
    refine (PathLocks.slot?_change_eq_some.mp hs').imp_left ?_
    rintro ⟨rfl, s₀, hs₀, rfl⟩
    obtain rfl := Option.some.inj (hs.symm.trans hs₀)
    exact ⟨rfl, rfl⟩
  have hnew : ∀ c k ph, w.Active c k ph → ph.place.slot = a.slot →
      ph.place.ticket ≠ s.gate.enter.1 := by
    intro c k ph hc hn heq
    exact (h.gates _ s hs).ticket_notMem (heq ▸ h.queued c k ph s hc (hn ▸ hs))
  show u.Queued
  refine ⟨?_, ?_, ?_, ?_, ?_⟩
  · intro n s' hs'
    rcases hslot n s' hs' with ⟨rfl, rfl⟩ | ⟨-, hs'⟩
    · exact (h.gates _ s hs).enter
    · exact h.gates n s' hs'
  · intro c k ph hc
    rcases hactive c k ph hc with hc | ⟨-, rfl, rfl⟩
    · exact h.held c k ph hc
    · exact hi
  · intro c k ph s' hc hs'
    rcases hactive c k ph hc with hc | ⟨-, rfl, rfl⟩
    · rcases hslot _ s' hs' with ⟨hn, rfl⟩ | ⟨-, hs'⟩
      · exact FairLock.mem_queue_enter.mpr (Or.inl (h.queued c k ph s hc (hn ▸ hs)))
      · exact h.queued c k ph s' hc hs'
    · rcases hslot _ s' hs' with ⟨-, rfl⟩ | ⟨hn, -⟩
      · exact FairLock.mem_queue_enter.mpr (Or.inr rfl)
      · exact absurd rfl hn
  · intro c d k k' ph ph' hc hd hslots htickets
    rcases hactive c k ph hc with hc | ⟨rfl, rfl, rfl⟩ <;>
      rcases hactive d k' ph' hd with hd | ⟨rfl, rfl, rfl⟩
    · exact h.apart c d k k' ph ph' hc hd hslots htickets
    · exact absurd htickets (hnew c k ph hc hslots)
    · exact absurd htickets.symm (hnew d k' ph' hd hslots.symm)
    · rfl
  · intro c k place' s' hc hs'
    rcases hactive c k _ hc with hc | ⟨-, -, hph⟩
    · rcases hslot _ s' hs' with ⟨hn, rfl⟩ | ⟨-, hs'⟩
      · exact FairLock.isHolder_enter (h.first c k place' s hc (hn ▸ hs))
      · exact h.first c k place' s' hc hs'
    · simp at hph

theorem enter (h : w.Queued) {c : Nat} {k : LockEntry} {place : PathLocks.Place} {s : Slot α}
    (hk : w.Active c k (.waiting place)) (hs : w.locks.slot? place.slot = some s)
    (hfirst : s.gate.isHolder place.ticket = true) :
    (w.advance c (some (.working place)) w.locks).Queued := by
  -- Every call keeps its place, so that only the call itself is to be looked at in the end.
  refine ⟨h.gates, ?_, ?_, ?_, ?_⟩
  · intro d k' ph' hd
    obtain ⟨k₀, ph₀, hd₀, ⟨hhandle, hpath, -⟩, hplace, -⟩ := active_entered hk hd
    rw [← hhandle, ← hpath, ← hplace]
    exact h.held d k₀ ph₀ hd₀
  · intro d k' ph' s' hd hs'
    obtain ⟨k₀, ph₀, hd₀, -, hplace, -⟩ := active_entered hk hd
    rw [← hplace] at hs' ⊢
    exact h.queued d k₀ ph₀ s' hd₀ hs'
  · intro d d' k₁ k₂ ph₁ ph₂ hd hd' hslots htickets
    obtain ⟨k₀, ph₀, hd₀, -, hplace, -⟩ := active_entered hk hd
    obtain ⟨k₀', ph₀', hd₀', -, hplace', -⟩ := active_entered hk hd'
    rw [← hplace, ← hplace'] at hslots htickets
    exact h.apart d d' k₀ k₀' ph₀ ph₀' hd₀ hd₀' hslots htickets
  · intro d k' place' s' hd hs'
    obtain ⟨k₀, ph₀, hd₀, -, -, ⟨-, rfl⟩ | ⟨-, hph⟩⟩ := active_entered hk hd
    · exact h.first d k₀ place' s' hd₀ hs'
    · obtain rfl : place' = place := by simpa using hph
      obtain rfl := Option.some.inj (hs.symm.trans hs')
      exact hfirst

/-- A call is over and gives its place back, whatever else is kept in its slot. -/
theorem close (h : w.Queued) {c : Nat} {k : LockEntry} {ph : LockCall} (hk : w.Active c k ph)
    {f : Slot α → Slot α} (hf : ∀ s, (f s).gate = s.gate.leave ph.place.ticket) :
    (w.advance c none (w.locks.change ph.place.slot f)).Queued := by
  refine ⟨?_, ?_, ?_, ?_, ?_⟩
  · intro n s' hs'
    rcases PathLocks.slot?_change_eq_some.mp hs' with ⟨-, s, hs, rfl⟩ | ⟨-, hs'⟩
    · rw [hf]
      exact (h.gates n s hs).leave _
    · exact h.gates n s' hs'
  · intro d k' ph' hd
    exact h.held d k' ph' (active_over hd).2
  · intro d k' ph' s' hd hs'
    obtain ⟨hne, hd⟩ := active_over hd
    rcases PathLocks.slot?_change_eq_some.mp hs' with ⟨hn, s, hs, rfl⟩ | ⟨-, hs'⟩
    · rw [hf, FairLock.mem_queue_leave fun ht ↦ hne (h.apart d c k' k ph' ph hd hk hn ht)]
      exact h.queued d k' ph' s hd hs
    · exact h.queued d k' ph' s' hd hs'
  · intro d d' k₁ k₂ ph₁ ph₂ hd hd' hslots htickets
    exact h.apart d d' k₁ k₂ ph₁ ph₂ (active_over hd).2 (active_over hd').2 hslots htickets
  · intro d k' place' s' hd hs'
    obtain ⟨hne, hd⟩ := active_over hd
    rcases PathLocks.slot?_change_eq_some.mp hs' with ⟨hn, s, hs, rfl⟩ | ⟨-, hs'⟩
    · rw [hf]
      exact FairLock.isHolder_leave (h.first d k' place' s hd hs)
        fun ht ↦ hne (h.apart d c k' k _ ph hd hk hn ht)
    · exact h.first d k' place' s' hd hs'

/-- Every step keeps the invariant of the queues. -/
theorem step (h : w.Queued) (ht : w.Tabled) (hstep : Step w e w') : w'.Queued := by
  cases hstep.effect with
  | take p => exact h.take ht p
  | letGo _ hidle => exact h.letGo ht hidle
  | call exclusive hh => exact h.call ht exclusive hh
  | enter hk hs hfirst _ => exact h.enter hk hs hfirst
  | share hk => exact h.close hk fun _ ↦ rfl
  | complete x hk => exact h.close hk fun _ ↦ rfl
  | leave hk => exact h.close hk fun _ ↦ rfl
  | drop hk => exact h.close hk fun _ ↦ rfl

end Queued

theorem queued_empty : (empty : LockWorld α).Queued where
  gates n s hs := by simp [empty, PathLocks.none, PathLocks.slot?] at hs
  held c k ph hc := by simp [Active, empty] at hc
  queued c k ph s hc := by simp [Active, empty] at hc
  apart c d k k' ph ph' hc := by simp [Active, empty] at hc
  first c k place s hc := by simp [Active, empty] at hc

end LockWorld

end CodeNav
