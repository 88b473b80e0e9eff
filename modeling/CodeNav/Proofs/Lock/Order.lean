import CodeNav.Proofs.Lock.Queue

/-!
# The order of waiting

Who comes later to a slot waits behind those who came before, and has seen no less of what was
finished in it. So when a call with exclusive work is let in, having seen all that was finished,
everybody who waits behind it has seen all of that as well: while exclusive work is under way nobody
in its slot is going to share an older outcome.

No ticket is left behind in a queue. As long as somebody waits in a slot, some call in it can go on.

## Main definitions

* `LockWorld.Ordered`: the invariant of the order
* `LockWorld.Attended`: every ticket in a queue is that of a call which is under way

## Main statements

* `LockWorld.Ordered.step`, `LockWorld.Attended.step`: every step keeps the invariants
* `LockWorld.Ordered.settled`: who waits beside exclusive work has seen all that was finished
* `LockWorld.Attended.first`: in a slot in which somebody waits, somebody is the first
-/

namespace CodeNav

namespace FairLock

variable {l : FairLock} {t : Nat}

/-- Tickets are given out in increasing order. -/
theorem pairwise_enter (h : l.WellFormed) (hsorted : l.queue.Pairwise (· < ·)) :
    l.enter.2.queue.Pairwise (· < ·) := by
  rw [enter, List.pairwise_append]
  refine ⟨hsorted, List.pairwise_singleton _ _, fun a ha b hb ↦ ?_⟩
  rw [List.mem_singleton.mp hb]
  exact h.below a ha

/-- Who holds a lock has the smallest ticket. -/
theorem le_of_isHolder (hsorted : l.queue.Pairwise (· < ·)) (hfirst : l.isHolder t = true) {u : Nat}
    (hu : u ∈ l.queue) : t ≤ u := by
  simp only [isHolder, decide_eq_true_eq] at hfirst
  obtain ⟨rest, hqueue⟩ := List.head?_eq_some_iff.mp hfirst
  rw [hqueue] at hsorted hu
  rcases List.mem_cons.mp hu with rfl | hu
  · exact Nat.le_refl _
  · exact Nat.le_of_lt (List.rel_of_pairwise_cons hsorted hu)

/-- A ticket that is still in the queue is another one than that which was given back. -/
theorem mem_of_mem_leave (h : l.WellFormed) {u : Nat} (hu : u ∈ (l.leave t).queue) :
    u ≠ t ∧ u ∈ l.queue :=
  h.nodup.mem_erase_iff.mp hu

end FairLock

namespace PathLocks

variable {α : Type} {l l' : PathLocks α}

/-- The slots are those of before but for the number of their holders, and new ones in which nothing
has been done. -/
def Extends (l l' : PathLocks α) : Prop :=
  ∀ n s, l'.slot? n = some s →
    (∃ s₀, l.slot? n = some s₀ ∧ s.gate = s₀.gate ∧ s.last = s₀.last ∧
      s.generation = s₀.generation) ∨ (l.slot? n = Option.none ∧ s = .fresh)

theorem extends_hold (l : PathLocks α) (p : Path) : l.Extends (l.hold p).2 := by
  intro n s hs
  cases hfind : l.find? p with
  | some m =>
    rw [hold_eq_of_find? hfind] at hs
    rcases slot?_change_eq_some.mp hs with ⟨-, s₀, hs₀, rfl⟩ | ⟨-, hs⟩
    · exact Or.inl ⟨s₀, hs₀, rfl, rfl, rfl⟩
    · exact Or.inl ⟨s, hs, rfl, rfl, rfl⟩
  | none =>
    rw [hold_eq_make hfind, slot?_make] at hs
    split at hs
    · rename_i hn
      refine Or.inr ⟨?_, (Option.some.inj hs).symm⟩
      rw [hn, slot?, List.getElem?_eq_none (Nat.le_refl _)]
    · exact Or.inl ⟨s, hs, rfl, rfl, rfl⟩

theorem extends_release (l : PathLocks α) (n : Nat) : l.Extends (l.release n) := by
  intro m s hs
  rcases slot?_change_eq_some.mp hs with ⟨-, s₀, hs₀, rfl⟩ | ⟨-, hs⟩
  · exact Or.inl ⟨s₀, hs₀, rfl, rfl, rfl⟩
  · exact Or.inl ⟨s, hs, rfl, rfl, rfl⟩

end PathLocks

namespace LockWorld

variable {α : Type} {w w' : LockWorld α} {e : LockEvent α}

/-! ### The order -/

/-- Later tickets have seen no less, and beside exclusive work everybody has seen everything. -/
structure Ordered (w : LockWorld α) : Prop where
  sorted : ∀ n s, w.locks.slot? n = some s → s.gate.queue.Pairwise (· < ·)
  untouched : ∀ n s, w.locks.slot? n = some s → s.last = none → s.generation = 0
  seen_le : ∀ c k ph s, w.Active c k ph → w.locks.slot? ph.place.slot = some s →
    ph.place.seen ≤ s.generation
  later : ∀ c d k k' ph ph', w.Active c k ph → w.Active d k' ph' → ph.place.slot = ph'.place.slot →
    ph.place.ticket ≤ ph'.place.ticket → ph.place.seen ≤ ph'.place.seen
  settled : ∀ c d k k' place ph s, w.Active c k (.working place) → k.exclusive = true →
    w.Active d k' ph → place.slot = ph.place.slot → w.locks.slot? place.slot = some s →
    ph.place.seen = s.generation

theorem ordered_empty : (empty : LockWorld α).Ordered where
  sorted n s hs := by simp [empty, PathLocks.none, PathLocks.slot?] at hs
  untouched n s hs := by simp [empty, PathLocks.none, PathLocks.slot?] at hs
  seen_le c k ph s hc := by simp [Active, empty] at hc
  later c d k k' ph ph' hc := by simp [Active, empty] at hc
  settled c d k k' place ph s hc := by simp [Active, empty] at hc

namespace Ordered

/-- Nothing changes for the calls while only the numbers of holders do. -/
theorem of_extends (h : w.Ordered) (hq : w.Queued) (ht : w.Tabled) {l : PathLocks α}
    (hl : w.locks.Extends l) (handles : List (Option LockHandle)) :
    Ordered { w with locks := l, handles := handles } := by
  -- The slot of a call that is under way is one of before.
  have hold : ∀ c k ph s, w.Active c k ph → l.slot? ph.place.slot = some s →
      ∃ s₀, w.locks.slot? ph.place.slot = some s₀ ∧ s.generation = s₀.generation := by
    intro c k ph s hc hs
    rcases hl _ s hs with ⟨s₀, hs₀, -, -, hgen⟩ | ⟨hnone, -⟩
    · exact ⟨s₀, hs₀, hgen⟩
    · obtain ⟨s₀, hs₀⟩ := hq.slot?_eq_some ht hc
      exact absurd (hnone.symm.trans hs₀) (by simp)
  refine ⟨?_, ?_, ?_, h.later, ?_⟩
  · intro n s hs
    rcases hl n s hs with ⟨s₀, hs₀, hgate, -, -⟩ | ⟨-, rfl⟩
    · exact hgate ▸ h.sorted n s₀ hs₀
    · exact List.Pairwise.nil
  · intro n s hs hlast
    rcases hl n s hs with ⟨s₀, hs₀, -, hlast₀, hgen⟩ | ⟨-, rfl⟩
    · exact hgen.trans (h.untouched n s₀ hs₀ (hlast₀ ▸ hlast))
    · rfl
  · intro c k ph s hc hs
    obtain ⟨s₀, hs₀, hgen⟩ := hold c k ph s hc hs
    exact hgen ▸ h.seen_le c k ph s₀ hc hs₀
  · intro c d k k' place ph s hc he hd hslot hs
    obtain ⟨s₀, hs₀, hgen⟩ := hold c k _ s hc hs
    exact hgen ▸ h.settled c d k k' place ph s₀ hc he hd hslot hs₀

/-- Who arrives has the latest ticket and has seen everything. -/
theorem call (h : w.Ordered) (hq : w.Queued) (ht : w.Tabled) {i : Nat} {a : LockHandle}
    (exclusive : Bool) (hi : w.handles[i]? = some (some a)) :
    Ordered { w with
      locks := (w.locks.arrive a.slot).2
      calls := w.calls ++
        [⟨i, a.path, exclusive, some (.waiting (w.locks.arrive a.slot).1)⟩] } := by
  obtain ⟨s, hs, -⟩ := ht.slot?_eq_some (List.mem_of_getElem? hi)
  rw [arrive_eq hs]
  let place : PathLocks.Place := ⟨a.slot, s.gate.enter.1, s.generation⟩
  let l := w.locks.change a.slot fun s ↦ { s with gate := s.gate.enter.2 }
  let u : LockWorld α :=
    { w with locks := l, calls := w.calls ++ [⟨i, a.path, exclusive, some (.waiting place)⟩] }
  have hactive : ∀ c k ph, u.Active c k ph → w.Active c k ph ∨ ph = .waiting place := by
    intro c k ph hc
    exact (active_concat hc).imp_right fun ⟨_, _, hph⟩ ↦ (Option.some.inj hph).symm
  have hslot : ∀ n s', l.slot? n = some s' →
      ∃ s₀, w.locks.slot? n = some s₀ ∧ s'.generation = s₀.generation ∧ s'.last = s₀.last ∧
        (s'.gate = s₀.gate ∨ s'.gate = s₀.gate.enter.2) := by
    intro n s' hs'
    rcases PathLocks.slot?_change_eq_some.mp hs' with ⟨-, s₀, hs₀, rfl⟩ | ⟨-, hs'⟩
    · exact ⟨s₀, hs₀, rfl, rfl, Or.inr rfl⟩
    · exact ⟨s', hs', rfl, rfl, Or.inl rfl⟩
  show u.Ordered
  refine ⟨?_, ?_, ?_, ?_, ?_⟩
  · intro n s' hs'
    obtain ⟨s₀, hs₀, -, -, hgate | hgate⟩ := hslot n s' hs'
    · exact hgate ▸ h.sorted n s₀ hs₀
    · exact hgate ▸ FairLock.pairwise_enter (hq.gates n s₀ hs₀) (h.sorted n s₀ hs₀)
  · intro n s' hs' hlast
    obtain ⟨s₀, hs₀, hgen, hlast₀, -⟩ := hslot n s' hs'
    exact hgen.trans (h.untouched n s₀ hs₀ (hlast₀ ▸ hlast))
  · intro c k ph s' hc hs'
    obtain ⟨s₀, hs₀, hgen, -⟩ := hslot _ s' hs'
    rw [hgen]
    rcases hactive c k ph hc with hc | rfl
    · exact h.seen_le c k ph s₀ hc hs₀
    · obtain rfl := Option.some.inj (hs.symm.trans hs₀)
      exact Nat.le_refl _
  · intro c d k k' ph ph' hc hd hslots htickets
    rcases hactive c k ph hc with hc | rfl <;> rcases hactive d k' ph' hd with hd | rfl
    · exact h.later c d k k' ph ph' hc hd hslots htickets
    · exact h.seen_le c k ph s hc (hslots ▸ hs)
    · -- A ticket that was given out before is smaller than the new one.
      have hmem := hq.queued d k' ph' s hd (hslots ▸ hs)
      exact absurd ((hq.gates _ s hs).below _ hmem) (Nat.not_lt.mpr htickets)
    · exact Nat.le_refl _
  · intro c d k k' place' ph s' hc he hd hslots hs'
    obtain ⟨s₀, hs₀, hgen, -⟩ := hslot _ s' hs'
    rw [hgen]
    rcases hactive c k _ hc with hc | hph
    · rcases hactive d k' ph hd with hd | rfl
      · exact h.settled c d k k' place' ph s₀ hc he hd hslots hs₀
      · rw [hslots] at hs₀
        obtain rfl := Option.some.inj (hs.symm.trans hs₀)
        rfl
    · simp at hph

/-- When exclusive work is let in, all who wait behind it have seen what its call has seen. -/
theorem enter (h : w.Ordered) (hq : w.Queued) {c : Nat} {k : LockEntry}
    {place : PathLocks.Place} {s : Slot α} (hk : w.Active c k (.waiting place))
    (hs : w.locks.slot? place.slot = some s) (hfirst : s.gate.isHolder place.ticket = true)
    (hnew : k.exclusive = true → s.last = none ∨ s.generation = place.seen) :
    (w.advance c (some (.working place)) w.locks).Ordered := by
  refine ⟨h.sorted, h.untouched, ?_, ?_, ?_⟩
  · intro d k' ph' s' hd hs'
    obtain ⟨k₀, ph₀, hd₀, -, hplace, -⟩ := active_entered hk hd
    rw [← hplace] at hs' ⊢
    exact h.seen_le d k₀ ph₀ s' hd₀ hs'
  · intro d d' k₁ k₂ ph₁ ph₂ hd hd' hslots htickets
    obtain ⟨k₀, ph₀, hd₀, -, hplace, -⟩ := active_entered hk hd
    obtain ⟨k₀', ph₀', hd₀', -, hplace', -⟩ := active_entered hk hd'
    rw [← hplace, ← hplace'] at hslots htickets ⊢
    exact h.later d d' k₀ k₀' ph₀ ph₀' hd₀ hd₀' hslots htickets
  · intro d d' k₁ k₂ place' ph s' hd he hd' hslots hs'
    obtain ⟨k₀, ph₀, hd₀, ⟨-, -, hexclusive⟩, -, hwork⟩ := active_entered hk hd
    obtain ⟨k₀', ph₀', hd₀', -, hplace', -⟩ := active_entered hk hd'
    rw [← hplace'] at hslots ⊢
    rcases hwork with ⟨rfl, rfl⟩ | ⟨rfl, hph⟩
    · exact h.settled d d' k₀ k₀' place' ph₀' s' hd₀ he hd₀' hslots hs'
    · obtain rfl : place' = place := by simpa using hph
      obtain rfl := Option.some.inj (hs.symm.trans hs')
      have hle := h.seen_le d' k₀' ph₀' s hd₀' (hslots ▸ hs)
      have hticket := FairLock.le_of_isHolder (h.sorted _ s hs) hfirst
        (hq.queued d' k₀' ph₀' s hd₀' (hslots ▸ hs))
      have hseen : place'.seen ≤ ph₀'.place.seen :=
        h.later c d' k₀ k₀' _ ph₀' hk hd₀' hslots hticket
      rcases hnew (hexclusive.trans he) with hnone | hgen
      · have := h.untouched _ s hs hnone
        omega
      · omega

/-- A call is over and gives its place back. Either it leaves no outcome, or it leaves one and nobody
else was at exclusive work. -/
theorem close (h : w.Ordered) {c : Nat} {place : PathLocks.Place} {f : Slot α → Slot α}
    (hgate : ∀ s, (f s).gate = s.gate.leave place.ticket)
    (hf : (∀ s, (f s).last = s.last ∧ (f s).generation = s.generation) ∨
      (∀ s, (f s).last ≠ none ∧ s.generation ≤ (f s).generation) ∧
        ∀ d k place', w.Active d k (.working place') → place'.slot = place.slot → d = c) :
    (w.advance c none (w.locks.change place.slot f)).Ordered := by
  have hslot : ∀ n s', (w.locks.change place.slot f).slot? n = some s' →
      ∃ s, w.locks.slot? n = some s ∧ ((n = place.slot ∧ s' = f s) ∨ (n ≠ place.slot ∧ s' = s)) := by
    intro n s' hs'
    rcases PathLocks.slot?_change_eq_some.mp hs' with ⟨hn, s, hs, rfl⟩ | ⟨hn, hs'⟩
    · exact ⟨s, hs, Or.inl ⟨hn, rfl⟩⟩
    · exact ⟨s', hs', Or.inr ⟨hn, rfl⟩⟩
  refine ⟨?_, ?_, ?_, ?_, ?_⟩
  · intro n s' hs'
    obtain ⟨s, hs, ⟨-, rfl⟩ | ⟨-, rfl⟩⟩ := hslot n s' hs'
    · rw [hgate]
      exact (h.sorted n s hs).sublist List.erase_sublist
    · exact h.sorted n s' hs
  · intro n s' hs' hnone
    obtain ⟨s, hs, ⟨-, rfl⟩ | ⟨-, rfl⟩⟩ := hslot n s' hs'
    · rcases hf with hsame | ⟨hkept, -⟩
      · exact (hsame s).2.trans (h.untouched n s hs ((hsame s).1 ▸ hnone))
      · exact absurd hnone (hkept s).1
    · exact h.untouched n s' hs hnone
  · intro d k ph s' hd hs'
    obtain ⟨s, hs, ⟨-, rfl⟩ | ⟨-, rfl⟩⟩ := hslot _ s' hs'
    · have hle : s.generation ≤ (f s).generation :=
        hf.elim (fun hsame ↦ Nat.le_of_eq (hsame s).2.symm) fun hkept ↦ (hkept.1 s).2
      exact Nat.le_trans (h.seen_le d k ph s (active_over hd).2 hs) hle
    · exact h.seen_le d k ph s' (active_over hd).2 hs
  · intro d d' k₁ k₂ ph₁ ph₂ hd hd' hslots htickets
    exact h.later d d' k₁ k₂ ph₁ ph₂ (active_over hd).2 (active_over hd').2 hslots htickets
  · intro d d' k₁ k₂ place' ph s' hd he hd' hslots hs'
    obtain ⟨hne, hd⟩ := active_over hd
    obtain ⟨s, hs, ⟨hn, rfl⟩ | ⟨-, rfl⟩⟩ := hslot _ s' hs'
    · rcases hf with hsame | ⟨-, hunique⟩
      · rw [(hsame s).2]
        exact h.settled d d' k₁ k₂ place' ph s hd he (active_over hd').2 hslots hs
      · exact absurd (hunique d k₁ place' hd hn) hne
    · exact h.settled d d' k₁ k₂ place' ph s' hd he (active_over hd').2 hslots hs

/-- A call is over that has come to no outcome. -/
theorem leave (h : w.Ordered) (c : Nat) (place : PathLocks.Place) :
    (w.advance c none (w.locks.leave place)).Ordered :=
  h.close (fun _ ↦ rfl) (Or.inl fun _ ↦ ⟨rfl, rfl⟩)

/-- Every step keeps the order. -/
theorem step (h : w.Ordered) (hq : w.Queued) (ht : w.Tabled) (hstep : Step w e w') :
    w'.Ordered := by
  cases hstep.effect with
  | take p => exact h.of_extends hq ht (w.locks.extends_hold p) _
  | letGo => exact h.of_extends hq ht (w.locks.extends_release _) _
  | call exclusive hh => exact h.call hq ht exclusive hh
  | enter hk hs hfirst hnew => exact h.enter hq hk hs hfirst hnew
  | share hk => exact h.leave _ _
  | @complete c k place x hk =>
    refine h.close (fun _ ↦ rfl) (Or.inr ⟨fun _ ↦ ⟨by simp, Nat.le_succ _⟩, ?_⟩)
    -- No other exclusive work is under way in the slot.
    intro d k' place' hd hslot
    exact hq.works_unique ht ⟨k', place', hd.1, rfl, hd.2⟩ ⟨k, place, hk.1, rfl, hk.2⟩
      (hq.path_same ht hd hk hslot)
  | leave hk => exact h.leave _ _
  | drop hk => exact h.leave _ _

end Ordered

/-! ### No ticket is left behind -/

/-- Every ticket in a queue is that of a call which is under way. -/
def Attended (w : LockWorld α) : Prop :=
  ∀ n s t, w.locks.slot? n = some s → t ∈ s.gate.queue →
    ∃ c k ph, w.Active c k ph ∧ ph.place.slot = n ∧ ph.place.ticket = t

theorem attended_empty : (empty : LockWorld α).Attended := by
  intro n s t hs
  simp [empty, PathLocks.none, PathLocks.slot?] at hs

namespace Attended

/-- In a slot in which somebody waits, some call has the first ticket. -/
theorem first (h : w.Attended) (hq : w.Queued) (ht : w.Tabled) {c : Nat} {k : LockEntry}
    {ph : LockCall} (hc : w.Active c k ph) :
    ∃ d k' ph' s, w.Active d k' ph' ∧ ph'.place.slot = ph.place.slot ∧
      w.locks.slot? ph'.place.slot = some s ∧ s.gate.isHolder ph'.place.ticket = true := by
  obtain ⟨s, hs⟩ := hq.slot?_eq_some ht hc
  have hmem := hq.queued c k ph s hc hs
  obtain ⟨t, rest, hqueue⟩ := List.exists_cons_of_ne_nil (List.ne_nil_of_mem hmem)
  obtain ⟨d, k', ph', hd, hslot, rfl⟩ := h _ s t hs (hqueue ▸ List.mem_cons_self)
  exact ⟨d, k', ph', s, hd, hslot, hslot ▸ hs, by simp [FairLock.isHolder, hqueue]⟩

/-- Nothing changes for the calls while only the numbers of holders do. -/
theorem of_extends (h : w.Attended) {l : PathLocks α} (hl : w.locks.Extends l)
    (handles : List (Option LockHandle)) : Attended { w with locks := l, handles := handles } := by
  intro n s t hs hmem
  rcases hl n s hs with ⟨s₀, hs₀, hgate, -, -⟩ | ⟨-, rfl⟩
  · exact h n s₀ t hs₀ (hgate ▸ hmem)
  · simp [Slot.fresh, FairLock.free] at hmem

theorem call (h : w.Attended) (ht : w.Tabled) {i : Nat} {a : LockHandle} (exclusive : Bool)
    (hi : w.handles[i]? = some (some a)) :
    Attended { w with
      locks := (w.locks.arrive a.slot).2
      calls := w.calls ++
        [⟨i, a.path, exclusive, some (.waiting (w.locks.arrive a.slot).1)⟩] } := by
  obtain ⟨s, hs, -⟩ := ht.slot?_eq_some (List.mem_of_getElem? hi)
  rw [arrive_eq hs]
  have hold : ∀ n s₀ t, w.locks.slot? n = some s₀ → t ∈ s₀.gate.queue →
      ∃ c k ph, Active { w with
        locks := w.locks.change a.slot fun s ↦ { s with gate := s.gate.enter.2 }
        calls := w.calls ++ [⟨i, a.path, exclusive,
          some (.waiting ⟨a.slot, s.gate.enter.1, s.generation⟩)⟩] } c k ph ∧
        ph.place.slot = n ∧ ph.place.ticket = t := by
    intro n s₀ t hs₀ hmem
    obtain ⟨c, k, ph, ⟨hk, hph⟩, hplace⟩ := h n s₀ t hs₀ hmem
    exact ⟨c, k, ph, ⟨getElem?_concat_eq_some.mpr (Or.inl hk), hph⟩, hplace⟩
  intro n s' t hs' hmem
  rcases PathLocks.slot?_change_eq_some.mp hs' with ⟨rfl, s₀, hs₀, rfl⟩ | ⟨-, hs'⟩
  · obtain rfl := Option.some.inj (hs.symm.trans hs₀)
    rcases FairLock.mem_queue_enter.mp hmem with hmem | rfl
    · exact hold _ s t hs hmem
    · exact ⟨w.calls.length, _, _, ⟨getElem?_concat_eq_some.mpr (Or.inr ⟨rfl, rfl⟩), rfl⟩, rfl, rfl⟩
  · exact hold n s' t hs' hmem

theorem enter (h : w.Attended) {c : Nat} {k : LockEntry} {place : PathLocks.Place}
    (hk : w.Active c k (.waiting place)) :
    (w.advance c (some (.working place)) w.locks).Attended := by
  intro n s t hs hmem
  obtain ⟨d, k₀, ph, hd, hplace⟩ := h n s t hs hmem
  by_cases hdc : d = c
  · subst hdc
    obtain rfl := Option.some.inj (hk.1.symm.trans hd.1)
    obtain rfl := Option.some.inj (hk.2.symm.trans hd.2)
    refine ⟨d, { k with phase := some (.working place) }, .working place, ⟨?_, rfl⟩, hplace⟩
    simp [advance, hk.1]
  · refine ⟨d, k₀, ph, ⟨?_, hd.2⟩, hplace⟩
    simp [advance, Ne.symm hdc, hd.1]

theorem close (h : w.Attended) (hq : w.Queued) {c : Nat} {k : LockEntry} {ph : LockCall}
    (hk : w.Active c k ph) {f : Slot α → Slot α}
    (hf : ∀ s, (f s).gate = s.gate.leave ph.place.ticket) :
    (w.advance c none (w.locks.change ph.place.slot f)).Attended := by
  -- Who has a ticket that is still in a queue is not the call that is over.
  have hother : ∀ n s t, w.locks.slot? n = some s → t ∈ s.gate.queue →
      (n = ph.place.slot → t ≠ ph.place.ticket) →
      ∃ d k' ph', (w.advance c none (w.locks.change ph.place.slot f)).Active d k' ph' ∧
        ph'.place.slot = n ∧ ph'.place.ticket = t := by
    intro n s t hs hmem hne
    obtain ⟨d, k', ph', hd, hslot, hticket⟩ := h n s t hs hmem
    refine ⟨d, k', ph', ⟨?_, hd.2⟩, hslot, hticket⟩
    have hdc : c ≠ d := by
      rintro rfl
      obtain rfl := Option.some.inj (hk.1.symm.trans hd.1)
      obtain rfl := Option.some.inj (hk.2.symm.trans hd.2)
      exact hne hslot.symm hticket.symm
    simp [advance, hdc, hd.1]
  intro n s' t hs' hmem
  rcases PathLocks.slot?_change_eq_some.mp hs' with ⟨hn, s, hs, rfl⟩ | ⟨hn, hs'⟩
  · rw [hf] at hmem
    obtain ⟨hne, hmem⟩ := FairLock.mem_of_mem_leave (hq.gates n s hs) hmem
    exact hother n s t hs hmem fun _ ↦ hne
  · exact hother n s' t hs' hmem fun h ↦ absurd h hn

/-- Every step leaves no ticket behind. -/
theorem step (h : w.Attended) (hq : w.Queued) (ht : w.Tabled) (hstep : Step w e w') :
    w'.Attended := by
  cases hstep.effect with
  | take p => exact h.of_extends (w.locks.extends_hold p) _
  | letGo => exact h.of_extends (w.locks.extends_release _) _
  | call exclusive hh => exact h.call ht exclusive hh
  | enter hk => exact h.enter hk
  | share hk => exact h.close hq hk fun _ ↦ rfl
  | complete x hk => exact h.close hq hk fun _ ↦ rfl
  | leave hk => exact h.close hq hk fun _ ↦ rfl
  | drop hk => exact h.close hq hk fun _ ↦ rfl

end Attended

end LockWorld

end CodeNav
