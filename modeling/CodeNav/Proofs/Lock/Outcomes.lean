import CodeNav.Proofs.Lock.Queue

/-!
# Who gets which outcome

A call that has waited shares an outcome only if other exclusive work on its path was finished since
it arrived, and then it is the latest one. The reason is an invariant that ties what a slot keeps to
the history: since a call arrived, the generation of its slot has grown by the number of outcomes
on its path, and if there are any, the slot keeps the last of them.

## Main definitions

* `LockWorld.Recorded`: what the history tells about the calls
* `LockWorld.Counted`: what the slots tell about the history

## Main statements

* `LockWorld.Recorded.step`, `LockWorld.Counted.step`: every step keeps the invariants
-/

namespace CodeNav

namespace LockEvent

variable {α : Type}

/-- What a call returns to its caller with an event. -/
def gives : LockEvent α → Option (Nat × Exclusive α)
  | ended c _ _ r => some (c, r)
  | shared c _ r => some (c, r)
  | _ => none

theorem outcomesOn_append (p : Path) (t u : List (LockEvent α)) :
    outcomesOn p (t ++ u) = outcomesOn p t ++ outcomesOn p u :=
  List.filterMap_append

theorem outcomesOn_singleton (p : Path) (e : LockEvent α) :
    outcomesOn p [e] = (outcomeOn p e).toList := by
  cases h : outcomeOn p e <;> simp [outcomesOn, h]

theorem outcomeOn_eq_some {p : Path} {x : α} {e : LockEvent α} (h : outcomeOn p e = some x) :
    ∃ c q r, e = .ended c q x r ∧ q.same p = true := by
  cases e with
  | ended c q y r =>
    simp only [outcomeOn, Option.ite_none_right_eq_some, Option.some.injEq] at h
    obtain ⟨hq, rfl⟩ := h
    exact ⟨c, q, r, rfl, hq⟩
  | _ => simp [outcomeOn] at h

/-- The event with the latest outcome, and that there is none after it. -/
theorem exists_latest {p : Path} {x : α} {t : List (LockEvent α)}
    (h : (outcomesOn p t).getLast? = some x) :
    ∃ before c q r after, t = before ++ .ended c q x r :: after ∧ q.same p = true ∧
      outcomesOn p after = [] := by
  obtain ⟨ys, hys⟩ := List.getLast?_eq_some_iff.mp h
  obtain ⟨t₁, t₂, rfl, -, h₂⟩ := List.filterMap_eq_append_iff.mp hys
  obtain ⟨l₁, e, l₂, rfl, -, he, hl₂⟩ := List.filterMap_eq_cons_iff.mp h₂
  obtain ⟨c, q, r, rfl, hq⟩ := outcomeOn_eq_some he
  exact ⟨t₁ ++ l₁, c, q, r, l₂, by rw [List.append_assoc], hq, hl₂⟩

end LockEvent

namespace PathLocks

variable {α : Type} {l : PathLocks α}

/-- The outcomes that are kept in slots are still the same. -/
def Keeps (l l' : PathLocks α) : Prop :=
  ∀ n s, l.slot? n = some s →
    ∃ s', l'.slot? n = some s' ∧ s'.generation = s.generation ∧ s'.last = s.last

theorem keeps_refl (l : PathLocks α) : l.Keeps l := fun _ s hs ↦ ⟨s, hs, rfl, rfl⟩

theorem keeps_change (l : PathLocks α) (n : Nat) {f : Slot α → Slot α}
    (hf : ∀ s, (f s).generation = s.generation ∧ (f s).last = s.last) : l.Keeps (l.change n f) := by
  intro m s hs
  by_cases hn : n = m
  · subst hn
    exact ⟨f s, slot?_change_self f hs, hf s⟩
  · exact ⟨s, by rw [slot?_change_of_ne f hn, hs], rfl, rfl⟩

theorem keeps_hold (l : PathLocks α) (p : Path) : l.Keeps (l.hold p).2 := by
  cases hfind : l.find? p with
  | some n =>
    rw [hold_eq_of_find? hfind]
    exact l.keeps_change n fun _ ↦ ⟨rfl, rfl⟩
  | none =>
    rw [hold_eq_make hfind]
    intro n s hs
    have hn : n ≠ l.slots.length := Nat.ne_of_lt (List.getElem?_eq_some_iff.mp hs).1
    exact ⟨s, by rw [slot?_make, if_neg hn, hs], rfl, rfl⟩

end PathLocks

namespace LockWorld

variable {α : Type} {w w' : LockWorld α} {t : List (LockEvent α)} {e : LockEvent α}

/-! ### What the history tells about the calls -/

/-- The history tells which calls have arrived, which of them work, and which are over. -/
structure Recorded (t : List (LockEvent α)) (w : LockWorld α) : Prop where
  arrivals : t.filterMap LockEvent.arrives = List.range w.calls.length
  once : (t.filterMap LockEvent.closes).Nodup
  arrived : ∀ c k, w.calls[c]? = some k → .called c k.path k.exclusive ∈ t
  entered : ∀ c p b, .entered c p b ∈ t → ∃ k, w.calls[c]? = some k ∧ k.path = p ∧ k.exclusive = b
  closed : ∀ e ∈ t, ∀ c, e.closes = some c → ∃ k, w.calls[c]? = some k ∧ k.phase = none
  ended : ∀ c k, w.calls[c]? = some k → k.phase = none → ∃ e ∈ t, e.closes = some c
  works : ∀ c k ph, w.Active c k ph →
    ((∃ place, ph = .working place) ↔ .entered c k.path k.exclusive ∈ t)

theorem recorded_empty : Recorded [] (empty : LockWorld α) where
  arrivals := rfl
  once := List.nodup_nil
  arrived c k hk := by simp [empty] at hk
  entered c p b h := by simp at h
  closed e h := by simp at h
  ended c k hk := by simp [empty] at hk
  works c k ph h := by simp [Active, empty] at h

theorem calls_advance (w : LockWorld α) (c d : Nat) (phase : Option LockCall) (l : PathLocks α) :
    (w.advance c phase l).calls[d]? =
      if c = d then (w.calls[d]?).map fun k ↦ { k with phase := phase } else w.calls[d]? := by
  simp only [advance, List.getElem?_modify]
  by_cases h : c = d <;> simp [h]

/-- A call is as before, or it has come to another phase. -/
theorem calls_advance_eq_some {c d : Nat} {phase : Option LockCall} {l : PathLocks α}
    {k : LockEntry} (h : (w.advance c phase l).calls[d]? = some k) :
    ∃ k₀, w.calls[d]? = some k₀ ∧ k.path = k₀.path ∧ k.exclusive = k₀.exclusive ∧
      (d ≠ c → k = k₀) ∧ (d = c → k.phase = phase) := by
  rw [calls_advance] at h
  split at h
  · rename_i hcd
    obtain ⟨k₀, hk₀, rfl⟩ := Option.map_eq_some_iff.mp h
    exact ⟨k₀, hk₀, rfl, rfl, fun hne ↦ absurd hcd.symm hne, fun _ ↦ rfl⟩
  · rename_i hcd
    exact ⟨k, h, rfl, rfl, fun _ ↦ rfl, fun heq ↦ absurd heq.symm hcd⟩

/-- Every call of before is still there. -/
theorem calls_advance_of_eq_some {c d : Nat} {phase : Option LockCall} {l : PathLocks α}
    {k₀ : LockEntry} (h : w.calls[d]? = some k₀) :
    ∃ k, (w.advance c phase l).calls[d]? = some k ∧ k.path = k₀.path ∧
      k.exclusive = k₀.exclusive ∧ (d ≠ c → k = k₀) ∧ (d = c → k.phase = phase) := by
  rw [calls_advance, h]
  split
  · rename_i hcd
    exact ⟨_, rfl, rfl, rfl, fun hne ↦ absurd hcd.symm hne, fun _ ↦ rfl⟩
  · rename_i hcd
    exact ⟨_, rfl, rfl, rfl, fun _ ↦ rfl, fun heq ↦ absurd heq.symm hcd⟩

namespace Recorded

/-- No event has closed a call that is under way. -/
theorem not_closed (h : Recorded t w) {c : Nat} {k : LockEntry} {ph : LockCall}
    (hc : w.Active c k ph) : ∀ e ∈ t, e.closes ≠ some c := by
  intro e he hclose
  obtain ⟨k', hk', hnone⟩ := h.closed e he c hclose
  obtain rfl := Option.some.inj (hc.1.symm.trans hk')
  exact absurd (hc.2.symm.trans hnone) (by simp)

/-- A caller takes a slot or lets go of it, which does not concern the calls. -/
theorem aside (h : Recorded t w) {l : PathLocks α} {handles : List (Option LockHandle)}
    (harrives : e.arrives = none) (hcloses : e.closes = none)
    (hentered : ∀ c p b, e ≠ .entered c p b) :
    Recorded (t ++ [e]) { w with locks := l, handles := handles } where
  arrivals := by simp [List.filterMap_append, harrives, h.arrivals]
  once := by simpa [List.filterMap_append, hcloses] using h.once
  arrived c k hk := List.mem_append_left _ (h.arrived c k hk)
  entered c p b hmem := by
    rcases List.mem_append.mp hmem with hmem | hmem
    · exact h.entered c p b hmem
    · exact absurd (List.mem_singleton.mp hmem).symm (hentered c p b)
  closed d hd c hclose := by
    rcases List.mem_append.mp hd with hd | hd
    · exact h.closed d hd c hclose
    · obtain rfl := List.mem_singleton.mp hd
      exact absurd (hcloses.symm.trans hclose) (by simp)
  ended c k hk hnone := by
    obtain ⟨d, hd, hclose⟩ := h.ended c k hk hnone
    exact ⟨d, List.mem_append_left _ hd, hclose⟩
  works c k ph hc := by
    rw [h.works c k ph hc, List.mem_append, List.mem_singleton]
    exact ⟨Or.inl, fun hmem ↦ hmem.resolve_right fun heq ↦ hentered _ _ _ heq.symm⟩

/-- A call arrives. -/
theorem call (h : Recorded t w) (i : Nat) (p : Path) (exclusive : Bool) (place : PathLocks.Place)
    (l : PathLocks α) :
    Recorded (t ++ [.called w.calls.length p exclusive])
      { w with locks := l, calls := w.calls ++ [⟨i, p, exclusive, some (.waiting place)⟩] } := by
  refine ⟨?_, ?_, ?_, ?_, ?_, ?_, ?_⟩
  · rw [List.filterMap_append, h.arrivals, List.length_append, List.length_singleton,
      List.range_succ]
    rfl
  · simpa [List.filterMap_append, List.filterMap_cons, LockEvent.closes] using h.once
  · intro c k hk
    rcases getElem?_concat_eq_some.mp hk with hk | ⟨rfl, rfl⟩
    · exact List.mem_append_left _ (h.arrived c k hk)
    · simp
  · intro c q b hmem
    obtain ⟨k, hk, hpath, hexclusive⟩ := h.entered c q b (by simpa using hmem)
    exact ⟨k, getElem?_concat_eq_some.mpr (Or.inl hk), hpath, hexclusive⟩
  · intro d hd c hclose
    rcases List.mem_append.mp hd with hd | hd
    · obtain ⟨k, hk, hnone⟩ := h.closed d hd c hclose
      exact ⟨k, getElem?_concat_eq_some.mpr (Or.inl hk), hnone⟩
    · obtain rfl := List.mem_singleton.mp hd
      simp [LockEvent.closes] at hclose
  · intro c k hk hnone
    rcases getElem?_concat_eq_some.mp hk with hk | ⟨-, rfl⟩
    · obtain ⟨d, hd, hclose⟩ := h.ended c k hk hnone
      exact ⟨d, List.mem_append_left _ hd, hclose⟩
    · simp at hnone
  · rintro c k ph ⟨hk, hph⟩
    rcases getElem?_concat_eq_some.mp hk with hk | ⟨rfl, rfl⟩
    · rw [h.works c k ph ⟨hk, hph⟩]
      simp
    · -- Nothing has been seen of the work of a call that has just arrived.
      obtain rfl := Option.some.inj hph
      constructor
      · simp
      · intro hmem
        obtain ⟨k, hk, -⟩ := h.entered _ _ _ (by simpa using hmem)
        exact absurd (List.getElem?_eq_some_iff.mp hk).1 (Nat.lt_irrefl _)

/-- The work of a call begins. -/
theorem enter (h : Recorded t w) {c : Nat} {k : LockEntry} {place : PathLocks.Place}
    (hk : w.Active c k (.waiting place)) :
    Recorded (t ++ [.entered c k.path k.exclusive])
      (w.advance c (some (.working place)) w.locks) := by
  refine ⟨?_, ?_, ?_, ?_, ?_, ?_, ?_⟩
  · simp [List.filterMap_append, LockEvent.arrives, h.arrivals, advance]
  · simpa [List.filterMap_append, List.filterMap_cons, LockEvent.closes] using h.once
  · intro d k' hk'
    obtain ⟨k₀, hk₀, hpath, hexclusive, -⟩ := calls_advance_eq_some hk'
    rw [hpath, hexclusive]
    exact List.mem_append_left _ (h.arrived d k₀ hk₀)
  · intro d p b hmem
    have : ∃ k₀, w.calls[d]? = some k₀ ∧ k₀.path = p ∧ k₀.exclusive = b := by
      rcases List.mem_append.mp hmem with hmem | hmem
      · exact h.entered d p b hmem
      · simp only [List.mem_singleton, LockEvent.entered.injEq] at hmem
        obtain ⟨rfl, rfl, rfl⟩ := hmem
        exact ⟨k, hk.1, rfl, rfl⟩
    obtain ⟨k₀, hk₀, rfl, rfl⟩ := this
    obtain ⟨k', hk', hpath, hexclusive, -⟩ := calls_advance_of_eq_some hk₀
    exact ⟨k', hk', hpath, hexclusive⟩
  · intro d hd c' hclose
    have hdt : d ∈ t := by
      rcases List.mem_append.mp hd with hd | hd
      · exact hd
      · obtain rfl := List.mem_singleton.mp hd
        simp [LockEvent.closes] at hclose
    obtain ⟨k₀, hk₀, hnone⟩ := h.closed d hdt c' hclose
    have hne : c' ≠ c := by
      rintro rfl
      exact h.not_closed hk d hdt hclose
    obtain ⟨k', hk', -, -, hsame, -⟩ := calls_advance_of_eq_some hk₀
    exact ⟨k', hk', hsame hne ▸ hnone⟩
  · intro d k' hk' hnone
    obtain ⟨k₀, hk₀, -, -, hsame, hphase⟩ := calls_advance_eq_some hk'
    by_cases hd : d = c
    · exact absurd ((hphase hd).symm.trans hnone) (by simp)
    · obtain ⟨d', hd', hclose⟩ := h.ended d k₀ hk₀ (hsame hd ▸ hnone)
      exact ⟨d', List.mem_append_left _ hd', hclose⟩
  · intro d k' ph hd
    rcases active_moved hk hd with ⟨hne, hd⟩ | ⟨rfl, rfl, rfl⟩
    · rw [h.works d k' ph hd, List.mem_append, List.mem_singleton]
      exact ⟨Or.inl, fun hmem ↦ hmem.resolve_right (by simp [hne])⟩
    · simp

/-- A call is over. -/
theorem close (h : Recorded t w) {c : Nat} {k : LockEntry} {ph : LockCall} (hk : w.Active c k ph)
    (l : PathLocks α) (harrives : e.arrives = none) (hcloses : e.closes = some c)
    (hentered : ∀ d p b, e ≠ .entered d p b) :
    Recorded (t ++ [e]) (w.advance c none l) := by
  refine ⟨?_, ?_, ?_, ?_, ?_, ?_, ?_⟩
  · simp [List.filterMap_append, harrives, h.arrivals, advance]
  · have hnew : ∀ d ∈ t, d.closes ≠ some c := h.not_closed hk
    simp only [List.filterMap_append, List.filterMap_cons, hcloses, List.filterMap_nil]
    refine h.once.append (List.nodup_singleton c) ?_
    simpa [List.disjoint_singleton, List.mem_filterMap] using hnew
  · intro d k' hk'
    obtain ⟨k₀, hk₀, hpath, hexclusive, -⟩ := calls_advance_eq_some hk'
    rw [hpath, hexclusive]
    exact List.mem_append_left _ (h.arrived d k₀ hk₀)
  · intro d p b hmem
    have hmem : .entered d p b ∈ t := by
      rcases List.mem_append.mp hmem with hmem | hmem
      · exact hmem
      · exact absurd (List.mem_singleton.mp hmem).symm (hentered d p b)
    obtain ⟨k₀, hk₀, rfl, rfl⟩ := h.entered d p b hmem
    obtain ⟨k', hk', hpath, hexclusive, -⟩ := calls_advance_of_eq_some hk₀
    exact ⟨k', hk', hpath, hexclusive⟩
  · intro d hd c' hclose
    by_cases hc : c' = c
    · subst hc
      obtain ⟨k', hk', -, -, -, hphase⟩ := calls_advance_of_eq_some hk.1
      exact ⟨k', hk', hphase rfl⟩
    · have hd : d ∈ t := by
        rcases List.mem_append.mp hd with hd | hd
        · exact hd
        · obtain rfl := List.mem_singleton.mp hd
          exact absurd (Option.some.inj (hclose.symm.trans hcloses)) hc
      obtain ⟨k₀, hk₀, hnone⟩ := h.closed d hd c' hclose
      obtain ⟨k', hk', -, -, hsame, -⟩ := calls_advance_of_eq_some hk₀
      exact ⟨k', hk', hsame hc ▸ hnone⟩
  · intro d k' hk' hnone
    obtain ⟨k₀, hk₀, -, -, hsame, -⟩ := calls_advance_eq_some hk'
    by_cases hd : d = c
    · exact ⟨e, by simp, hd ▸ hcloses⟩
    · obtain ⟨d', hd', hclose⟩ := h.ended d k₀ hk₀ (hsame hd ▸ hnone)
      exact ⟨d', List.mem_append_left _ hd', hclose⟩
  · intro d k' ph' hd
    rw [h.works d k' ph' (active_over hd).2, List.mem_append, List.mem_singleton]
    exact ⟨Or.inl, fun hmem ↦ hmem.resolve_right fun heq ↦ hentered _ _ _ heq.symm⟩

/-- Every step is recorded. -/
theorem step (h : Recorded t w) (hstep : Step w e w') : Recorded (t ++ [e]) w' := by
  cases hstep.effect with
  | take p => exact h.aside rfl rfl (by simp)
  | letGo => exact h.aside rfl rfl (by simp)
  | call exclusive => exact h.call _ _ exclusive _ _
  | enter hk => exact h.enter hk
  | share hk => exact h.close hk _ rfl rfl (by simp)
  | complete x hk => exact h.close hk _ rfl rfl (by simp)
  | leave hk => exact h.close hk _ rfl rfl (by simp)
  | drop hk => exact h.close hk _ rfl rfl (by simp)

end Recorded

/-! ### What the slots tell about the history -/

/-- Since a call arrived, the generation of its slot has grown with every outcome on its path, and
the slot keeps the last of them. -/
def Counted (t : List (LockEvent α)) (w : LockWorld α) : Prop :=
  ∀ c k ph s, w.Active c k ph → w.locks.slot? ph.place.slot = some s →
    ∃ before after, t = before ++ .called c k.path k.exclusive :: after ∧
      s.generation = ph.place.seen + (LockEvent.outcomesOn k.path after).length ∧
      ∀ x, (LockEvent.outcomesOn k.path after).getLast? = some x → s.last = some x

theorem counted_empty : Counted [] (empty : LockWorld α) := by
  intro c k ph s hc
  simp [Active, empty] at hc

namespace Counted

/-- Nothing changes for a call with an event that is no outcome on its path. -/
theorem extend {c : Nat} {k : LockEntry} {seen : Nat} {s : Slot α}
    (h : ∃ before after, t = before ++ .called c k.path k.exclusive :: after ∧
      s.generation = seen + (LockEvent.outcomesOn k.path after).length ∧
      ∀ x, (LockEvent.outcomesOn k.path after).getLast? = some x → s.last = some x)
    (he : e.outcomeOn k.path = none) :
    ∃ before after, t ++ [e] = before ++ .called c k.path k.exclusive :: after ∧
      s.generation = seen + (LockEvent.outcomesOn k.path after).length ∧
      ∀ x, (LockEvent.outcomesOn k.path after).getLast? = some x → s.last = some x := by
  obtain ⟨before, after, rfl, hgen, hlast⟩ := h
  have hsame : LockEvent.outcomesOn k.path (after ++ [e]) = LockEvent.outcomesOn k.path after := by
    rw [LockEvent.outcomesOn_append, LockEvent.outcomesOn_singleton, he]
    simp
  refine ⟨before, after ++ [e], by simp, ?_, ?_⟩
  · rw [hsame, hgen]
  · rw [hsame]
    exact hlast

/-- No exclusive work has come to an outcome, and every call that is under way was so before. -/
theorem keep (h : Counted t w) (ht : w.Tabled) (hq : w.Queued) (he : ∀ p, e.outcomeOn p = none)
    (hlocks : w.locks.Keeps w'.locks)
    (hactive : ∀ c k ph, w'.Active c k ph → ∃ k₀ ph₀, w.Active c k₀ ph₀ ∧ k₀.path = k.path ∧
      k₀.exclusive = k.exclusive ∧ ph₀.place = ph.place) :
    Counted (t ++ [e]) w' := by
  intro c k ph s hc hs
  obtain ⟨k₀, ph₀, hc₀, hpath, hexclusive, hplace⟩ := hactive c k ph hc
  obtain ⟨s₀, hs₀⟩ := hq.slot?_eq_some ht hc₀
  obtain ⟨s', hs', hgen, hlast⟩ := hlocks _ s₀ hs₀
  rw [← hplace] at hs ⊢
  obtain rfl := Option.some.inj (hs'.symm.trans hs)
  rw [← hpath, ← hexclusive, hgen, hlast]
  exact extend (h c k₀ ph₀ s₀ hc₀ hs₀) (he _)

/-- A call is over that has come to no outcome. -/
theorem close (h : Counted t w) (ht : w.Tabled) (hq : w.Queued) (he : ∀ p, e.outcomeOn p = none)
    (c : Nat) (place : PathLocks.Place) :
    Counted (t ++ [e]) (w.advance c none (w.locks.leave place)) := by
  refine h.keep ht hq he (w.locks.keeps_change _ fun _ ↦ ⟨rfl, rfl⟩) fun d k ph hd ↦ ?_
  exact ⟨k, ph, (active_over hd).2, rfl, rfl, rfl⟩

/-- A call arrives, and sees the generation of its slot. -/
theorem call (h : Counted t w) (ht : w.Tabled) (hq : w.Queued) {i : Nat} {a : LockHandle}
    (exclusive : Bool) (hi : w.handles[i]? = some (some a)) :
    Counted (t ++ [.called w.calls.length a.path exclusive])
      { w with
        locks := (w.locks.arrive a.slot).2
        calls := w.calls ++
          [⟨i, a.path, exclusive, some (.waiting (w.locks.arrive a.slot).1)⟩] } := by
  obtain ⟨s, hs, -⟩ := ht.slot?_eq_some (List.mem_of_getElem? hi)
  rw [arrive_eq hs]
  have hlocks : w.locks.Keeps (w.locks.change a.slot fun s ↦ { s with gate := s.gate.enter.2 }) :=
    w.locks.keeps_change _ fun _ ↦ ⟨rfl, rfl⟩
  rintro c k ph s' ⟨hk, hph⟩ hs'
  rcases getElem?_concat_eq_some.mp hk with hk | ⟨rfl, rfl⟩
  · obtain ⟨s₀, hs₀⟩ := hq.slot?_eq_some ht ⟨hk, hph⟩
    obtain ⟨s₁, hs₁, hgen, hlast⟩ := hlocks _ s₀ hs₀
    obtain rfl := Option.some.inj (hs₁.symm.trans hs')
    rw [hgen, hlast]
    exact extend (h c k ph s₀ ⟨hk, hph⟩ hs₀) rfl
  · -- The call itself has seen the generation, and nothing has happened since.
    obtain rfl := Option.some.inj hph
    obtain ⟨s₁, hs₁, hgen, -⟩ := hlocks _ s hs
    obtain rfl := Option.some.inj (hs₁.symm.trans hs')
    exact ⟨t, [], rfl, hgen, by simp [LockEvent.outcomesOn]⟩

/-- Exclusive work comes to an outcome. -/
theorem complete (h : Counted t w) (ht : w.Tabled) (hq : w.Queued) {c : Nat} {k : LockEntry}
    {place : PathLocks.Place} (x : α) (hk : w.Active c k (.working place)) :
    Counted (t ++ [.ended c k.path x (.ran x)]) (w.advance c none (w.locks.finish place x)) := by
  intro d k' ph s' hd hs'
  obtain ⟨-, hd⟩ := active_over hd
  rcases PathLocks.slot?_change_eq_some.mp hs' with ⟨hn, s, hs, rfl⟩ | ⟨hn, hs'⟩
  · -- The work was on the path of the call.
    have hsame : k.path.same k'.path = true := hq.path_same ht hk hd hn.symm
    obtain ⟨before, after, rfl, hgen, hlast⟩ := h d k' ph s hd hs
    have hout : LockEvent.outcomesOn k'.path (after ++ [.ended c k.path x (.ran x)]) =
        LockEvent.outcomesOn k'.path after ++ [x] := by
      rw [LockEvent.outcomesOn_append, LockEvent.outcomesOn_singleton]
      simp [LockEvent.outcomeOn, hsame]
    refine ⟨before, after ++ [.ended c k.path x (.ran x)], by simp, ?_, ?_⟩
    · rw [hout, List.length_append, List.length_singleton]
      simp only [hgen]
      omega
    · intro y hy
      rw [hout, List.getLast?_concat] at hy
      exact hy
  · refine extend (h d k' ph s' hd hs') ?_
    -- The work was on another path, as the call is in another slot.
    have hother : ¬ k.path.same k'.path = true := fun hsame ↦
      hn (hq.slot_eq ht hk hd hsame).symm
    simp [LockEvent.outcomeOn, hother]

/-- Every step keeps the count. -/
theorem step (h : Counted t w) (ht : w.Tabled) (hq : w.Queued) (hstep : Step w e w') :
    Counted (t ++ [e]) w' := by
  cases hstep.effect with
  | take p =>
    exact h.keep ht hq (fun _ ↦ rfl) (w.locks.keeps_hold p)
      fun c k ph hc ↦ ⟨k, ph, hc, rfl, rfl, rfl⟩
  | letGo =>
    exact h.keep ht hq (fun _ ↦ rfl) (w.locks.keeps_change _ fun _ ↦ ⟨rfl, rfl⟩)
      fun c k ph hc ↦ ⟨k, ph, hc, rfl, rfl, rfl⟩
  | call exclusive hh => exact h.call ht hq exclusive hh
  | enter hk =>
    refine h.keep ht hq (fun _ ↦ rfl) w.locks.keeps_refl fun d k' ph hd ↦ ?_
    obtain ⟨k₀, ph₀, hd₀, ⟨-, hpath, hexclusive⟩, hplace, -⟩ := active_entered hk hd
    exact ⟨k₀, ph₀, hd₀, hpath, hexclusive, hplace⟩
  | share hk => exact h.close ht hq (fun _ ↦ rfl) _ _
  | complete x hk => exact h.complete ht hq x hk
  | leave hk => exact h.close ht hq (fun _ ↦ rfl) _ _
  | drop hk => exact h.close ht hq (fun _ ↦ rfl) _ _

end Counted

end LockWorld

end CodeNav
