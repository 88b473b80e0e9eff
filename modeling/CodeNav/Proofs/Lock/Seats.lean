import CodeNav.Proofs.Lock.Order
import Mathlib.Logic.Function.Basic

/-!
# Callers that make one call

Work on a checkout takes a slot for one call, and lets go of it when the call is over. Who does so has
a *seat*. Locks that are only used by callers in seats are those of a run of callers, so that all is
known of the seats that is known of callers in general: work on a path is done in one seat at a time,
who waits beside exclusive work will not share an older outcome, and as long as a call waits some
call can go on.

## Main definitions

* `LockSeat`: a slot that was taken for one call
* `LockWorld.Seated`: locks that are used by callers in seats

## Main statements

* `LockWorld.Seated.arrive`, `enter`, `leave`, `finish`, `letGo`: what callers in seats do
* `LockWorld.Seated.one_works`: work on a path is done in one seat
* `LockWorld.Seated.settled`: who waits beside exclusive work has seen all that was finished
* `LockWorld.Seated.first`: some call in a slot can go on
-/

namespace CodeNav

/-- A slot that was taken for one call. -/
structure LockSeat where
  path : Path
  exclusive : Bool
  slot : Nat
  /-- The call has no phase when it is over and its caller still holds on to the slot. -/
  phase : Option LockCall
  deriving DecidableEq

/-- A call queues up in the slot in which it arrives. -/
theorem PathLocks.arrive_slot {α : Type} (l : PathLocks α) (n : Nat) : (l.arrive n).1.slot = n := by
  unfold arrive
  split <;> rfl

namespace LockWorld

variable {α : Type} {w : LockWorld α} {l : PathLocks α} {seats : Nat → Option LockSeat}
  {row : Nat → Nat} {m n : Nat} {a b : LockSeat} {place : PathLocks.Place}

/-- A seat is the one that was changed, or is as before. -/
theorem update_eq_some {β : Type} {f : Nat → Option β} {v : Option β} {x : β} :
    Function.update f n v m = some x ↔ (m = n ∧ v = some x) ∨ (m ≠ n ∧ f m = some x) := by
  by_cases h : m = n
  · subst h
    simp
  · simp [h]

/-- Each seat is that of a caller with one call, whose number is its row. -/
structure Seats (w : LockWorld α) (seats : Nat → Option LockSeat) (row : Nat → Nat) : Prop where
  even : w.handles.length = w.calls.length
  own : ∀ (c : Nat) (k : LockEntry), w.calls[c]? = some k → k.handle = c
  handle : ∀ n a, seats n = some a → w.handles[row n]? = some (some ⟨a.path, a.slot⟩)
  call : ∀ n a, seats n = some a →
    w.calls[row n]? = some ⟨row n, a.path, a.exclusive, a.phase⟩
  apart : ∀ m n a b, seats m = some a → seats n = some b → row m = row n → m = n
  all : ∀ c k ph, w.Active c k ph → ∃ n a, seats n = some a ∧ row n = c

namespace Seats

theorem active (h : w.Seats seats row) (hn : seats n = some a) {ph : LockCall}
    (hph : a.phase = some ph) : w.Active (row n) ⟨row n, a.path, a.exclusive, a.phase⟩ ph :=
  ⟨h.call n a hn, hph⟩

/-- A call in a seat goes on. -/
theorem advance (h : w.Seats seats row) (hn : seats n = some a) (phase : Option LockCall)
    (l : PathLocks α) :
    (w.advance (row n) phase l).Seats (Function.update seats n (some { a with phase := phase }))
      row := by
  have hold : ∀ m b, Function.update seats n (some { a with phase := phase }) m = some b →
      ∃ b₀, seats m = some b₀ ∧ b₀.path = b.path ∧ b₀.slot = b.slot := by
    intro m b hm
    rcases update_eq_some.mp hm with ⟨rfl, ⟨⟩⟩ | ⟨-, hm⟩
    · exact ⟨a, hn, rfl, rfl⟩
    · exact ⟨b, hm, rfl, rfl⟩
  refine ⟨?_, ?_, ?_, ?_, ?_, ?_⟩
  · simpa [LockWorld.advance] using h.even
  · intro c k hk
    simp only [LockWorld.advance, List.getElem?_modify] at hk
    obtain ⟨k₀, hk₀, hsame⟩ := Option.map_eq_some_iff.mp hk
    have := h.own c k₀ hk₀
    split at hsame <;> subst hsame <;> exact this
  · intro m b hm
    obtain ⟨b₀, hb₀, hpath, hslot⟩ := hold m b hm
    rw [← hpath, ← hslot]
    exact h.handle m b₀ hb₀
  · intro m b hm
    simp only [LockWorld.advance, List.getElem?_modify]
    rcases update_eq_some.mp hm with ⟨rfl, ⟨⟩⟩ | ⟨hmn, hm⟩
    · simp [h.call m a hn]
    · have hne : row n ≠ row m := fun heq ↦ hmn (h.apart m n b a hm hn heq.symm)
      simp [h.call m b hm, hne]
  · intro m m' b b' hm hm' hrow
    obtain ⟨b₀, hb₀, -⟩ := hold m b hm
    obtain ⟨b₀', hb₀', -⟩ := hold m' b' hm'
    exact h.apart m m' b₀ b₀' hb₀ hb₀' hrow
  · intro c k ph hc
    rcases active_advance hc with ⟨-, hc⟩ | ⟨rfl, -⟩
    · obtain ⟨m, b, hm, hrow⟩ := h.all c k ph hc
      by_cases hmn : m = n
      · exact ⟨n, _, Function.update_self .., hmn ▸ hrow⟩
      · exact ⟨m, b, by rw [Function.update_of_ne hmn, hm], hrow⟩
    · exact ⟨n, _, Function.update_self .., rfl⟩

end Seats

/-- The locks are used by callers in seats. -/
def Seated (l : PathLocks α) (seats : Nat → Option LockSeat) : Prop :=
  ∃ t w row, Run Step empty t w ∧ w.locks = l ∧ w.Seats seats row

theorem seated_none : Seated (.none : PathLocks α) fun _ ↦ none :=
  ⟨[], empty, id, .nil, rfl, rfl, fun c k hk ↦ by simp [empty] at hk, by simp, by simp, by simp,
    fun c k ph hc ↦ by simp [Active, empty] at hc⟩

namespace Seated

/-! ### What callers in seats do -/

/-- A caller takes a slot, and its call arrives there. -/
theorem arrive (h : Seated l seats) (hn : seats n = none) (p : Path) (exclusive : Bool) :
    Seated ((l.hold p).2.arrive (l.hold p).1).2 (Function.update seats n
      (some ⟨p, exclusive, ((l.hold p).2.arrive (l.hold p).1).1.slot,
        some (.waiting ((l.hold p).2.arrive (l.hold p).1).1)⟩)) := by
  rw [PathLocks.arrive_slot]
  obtain ⟨t, w, row, hrun, rfl, hs⟩ := h
  have took := hrun.snoc (Step.take p)
  have called := took.snoc (Step.call (h := w.handles.length) (a := ⟨p, (w.locks.hold p).1⟩) exclusive
    List.getElem?_concat_length)
  refine ⟨_, _, Function.update row n w.handles.length, called, rfl, ?_⟩
  have hlt : ∀ m b, seats m = some b → row m ≠ w.handles.length := fun m b hm ↦
    Nat.ne_of_lt (List.getElem?_eq_some_iff.mp (hs.handle m b hm)).1
  refine ⟨?_, ?_, ?_, ?_, ?_, ?_⟩
  · simp [hs.even]
  · intro c k hk
    rcases getElem?_concat_eq_some.mp hk with hk | ⟨rfl, rfl⟩
    · exact hs.own c k hk
    · exact hs.even
  · intro m b hm
    rcases update_eq_some.mp hm with ⟨rfl, ⟨⟩⟩ | ⟨hmn, hm⟩
    · rw [Function.update_self]
      exact List.getElem?_concat_length
    · rw [Function.update_of_ne hmn]
      exact getElem?_concat_eq_some.mpr (Or.inl (hs.handle m b hm))
  · intro m b hm
    rcases update_eq_some.mp hm with ⟨rfl, ⟨⟩⟩ | ⟨hmn, hm⟩
    · rw [Function.update_self]
      exact getElem?_concat_eq_some.mpr (Or.inr ⟨hs.even, rfl⟩)
    · rw [Function.update_of_ne hmn]
      exact getElem?_concat_eq_some.mpr (Or.inl (hs.call m b hm))
  · intro m m' b b' hm hm' hrow
    rcases update_eq_some.mp hm with ⟨rfl, -⟩ | ⟨hmn, hm₀⟩ <;>
      rcases update_eq_some.mp hm' with ⟨rfl, -⟩ | ⟨hmn', hm₀'⟩
    · rfl
    · rw [Function.update_self, Function.update_of_ne hmn'] at hrow
      exact absurd hrow.symm (hlt m' b' hm₀')
    · rw [Function.update_self, Function.update_of_ne hmn] at hrow
      exact absurd hrow (hlt m b hm₀)
    · rw [Function.update_of_ne hmn, Function.update_of_ne hmn'] at hrow
      exact hs.apart m m' b b' hm₀ hm₀' hrow
  · intro c k ph hc
    rcases active_concat hc with hc | ⟨rfl, -⟩
    · obtain ⟨m, b, hm, rfl⟩ := hs.all c k ph hc
      have hmn : m ≠ n := by
        rintro rfl
        exact absurd (hn.symm.trans hm) (by simp)
      exact ⟨m, b, by rw [Function.update_of_ne hmn, hm], Function.update_of_ne hmn ..⟩
    · exact ⟨n, _, Function.update_self .., by rw [Function.update_self, hs.even]⟩

/-- The work of a call begins. -/
theorem enter (h : Seated l seats) (hn : seats n = some a) (hph : a.phase = some (.waiting place))
    (hfirst : l.admission place = .granted ∨ (a.exclusive = false ∧ l.admission place ≠ .notYet)) :
    Seated l (Function.update seats n (some { a with phase := some (.working place) })) := by
  obtain ⟨t, w, row, hrun, rfl, hs⟩ := h
  have hadmitted : w.locks.admission place ≠ .notYet := by
    rcases hfirst with hgranted | ⟨-, hadmitted⟩
    · simp [hgranted]
    · exact hadmitted
  by_cases he : a.exclusive = true
  · have hgranted : w.locks.admission place = .granted := hfirst.resolve_right (by simp [he])
    have hturn : (LockCall.waiting place).exclusiveTurn none w.locks =
        .moved (.working place) w.locks := by
      simp [LockCall.exclusiveTurn, hgranted]
    have entered := hrun.snoc (Step.enter (hs.call n a hn) hph he hturn)
    exact ⟨_, _, row, entered, rfl, hs.advance hn _ _⟩
  · have hturn : (LockCall.waiting place).apartTurn (none : Option Unit) w.locks =
        .moved (.working place) w.locks := by
      simp only [LockCall.apartTurn]
    have entered := hrun.snoc (Step.enterApart (hs.call n a hn) hph (by simpa using he) hturn)
    exact ⟨_, _, row, entered, rfl, hs.advance hn _ _⟩

/-- A call is over that leaves no outcome. -/
theorem leave (h : Seated l seats) (hn : seats n = some a) {ph : LockCall}
    (hph : a.phase = some ph) :
    Seated (l.leave ph.place) (Function.update seats n (some { a with phase := none })) := by
  obtain ⟨t, w, row, hrun, rfl, hs⟩ := h
  exact ⟨_, _, row, hrun.snoc (Step.drop (hs.call n a hn) hph), rfl, hs.advance hn _ _⟩

/-- Exclusive work comes to an outcome. -/
theorem finish (h : Seated l seats) (hn : seats n = some a) (hph : a.phase = some (.working place))
    (he : a.exclusive = true) (x : α) :
    Seated (l.finish place x) (Function.update seats n (some { a with phase := none })) := by
  obtain ⟨t, w, row, hrun, rfl, hs⟩ := h
  exact ⟨_, _, row, hrun.snoc (Step.complete x (hs.call n a hn) hph he rfl), rfl,
    hs.advance hn _ _⟩

/-- A caller whose call is over lets go of its slot. -/
theorem letGo (h : Seated l seats) (hn : seats n = some a) (hph : a.phase = none) :
    Seated (l.release a.slot) (Function.update seats n none) := by
  obtain ⟨t, w, row, hrun, rfl, hs⟩ := h
  have hidle : ∀ k ∈ w.calls, k.handle = row n → k.phase = none := by
    intro k hk hrow
    obtain ⟨c, hc⟩ := List.mem_iff_getElem?.mp hk
    obtain rfl : row n = c := hrow.symm.trans (hs.own c k hc)
    obtain rfl := Option.some.inj ((hs.call n a hn).symm.trans hc)
    exact hph
  refine ⟨_, _, row, hrun.snoc (Step.letGo (hs.handle n a hn) hidle), rfl, ?_⟩
  have hseats : ∀ m b, Function.update seats n none m = some b → m ≠ n ∧ seats m = some b := by
    intro m b hm
    exact (update_eq_some.mp hm).resolve_left (by simp)
  refine ⟨by simpa using hs.even, hs.own, ?_, ?_, ?_, ?_⟩
  · intro m b hm
    obtain ⟨hmn, hm⟩ := hseats m b hm
    rw [List.getElem?_set_ne fun heq ↦ hmn (hs.apart m n b a hm hn heq.symm)]
    exact hs.handle m b hm
  · intro m b hm
    exact hs.call m b (hseats m b hm).2
  · intro m m' b b' hm hm' hrow
    exact hs.apart m m' b b' (hseats m b hm).2 (hseats m' b' hm').2 hrow
  · intro c k ph hc
    obtain ⟨m, b, hm, rfl⟩ := hs.all c k ph hc
    have hmn : m ≠ n := by
      rintro rfl
      obtain rfl := Option.some.inj (hn.symm.trans hm)
      obtain rfl := Option.some.inj ((hs.call m a hn).symm.trans hc.1)
      exact absurd (hph.symm.trans hc.2) (by simp)
    exact ⟨m, b, by rw [Function.update_of_ne hmn, hm], rfl⟩

/-! ### What is known of seats -/

/-- The invariants of the order of waiting hold as well. -/
theorem ordered_of_run {t : List (LockEvent α)} (h : Run Step empty t w) :
    w.Tabled ∧ w.Queued ∧ w.Ordered ∧ w.Attended := by
  refine h.invariant (P := fun _ w ↦ w.Tabled ∧ w.Queued ∧ w.Ordered ∧ w.Attended)
    ⟨tabled_empty, queued_empty, ordered_empty, attended_empty⟩ ?_
  rintro t u e v - ⟨htabled, hqueued, hordered, hattended⟩ hstep
  exact ⟨htabled.step hstep, hqueued.step htabled hstep, hordered.step hqueued htabled hstep,
    hattended.step hqueued htabled hstep⟩

/-- The slot of a call that is under way is that of its seat, and exists. -/
theorem slot?_eq_some (h : Seated l seats) (hn : seats n = some a) {ph : LockCall}
    (hph : a.phase = some ph) :
    ph.place.slot = a.slot ∧ ∃ s, l.slot? ph.place.slot = some s := by
  obtain ⟨t, w, row, hrun, rfl, hs⟩ := h
  obtain ⟨htabled, hqueued, -⟩ := ordered_of_run hrun
  have hactive := hs.active hn hph
  have hhandle := hqueued.held _ _ _ hactive
  obtain ⟨-, hslot⟩ : a.path = a.path ∧ a.slot = ph.place.slot := by
    simpa using (hs.handle n a hn).symm.trans hhandle
  exact ⟨hslot.symm, hqueued.slot?_eq_some htabled hactive⟩

/-- Work on a path is done in one seat. -/
theorem one_works (h : Seated l seats) {place' : PathLocks.Place} (hm : seats m = some a)
    (hn : seats n = some b) (ha : a.phase = some (.working place))
    (hb : b.phase = some (.working place')) (hpath : a.path.same b.path = true) : m = n := by
  obtain ⟨t, w, row, hrun, rfl, hs⟩ := h
  obtain ⟨htabled, hqueued, -⟩ := ordered_of_run hrun
  refine hs.apart m n a b hm hn (hqueued.works_unique htabled ?_ ?_ hpath)
  · exact ⟨_, place, (hs.active hm ha).1, rfl, ha⟩
  · exact ⟨_, place', (hs.active hn hb).1, rfl, hb⟩

/-- Calls on one path are in one slot. -/
theorem slot_eq (h : Seated l seats) {ph ph' : LockCall} (hm : seats m = some a)
    (hn : seats n = some b) (ha : a.phase = some ph) (hb : b.phase = some ph')
    (hpath : a.path.same b.path = true) : ph.place.slot = ph'.place.slot := by
  obtain ⟨t, w, row, hrun, rfl, hs⟩ := h
  obtain ⟨htabled, hqueued, -⟩ := ordered_of_run hrun
  exact hqueued.slot_eq htabled (hs.active hm ha) (hs.active hn hb) hpath

/-- Calls in one slot are on one path. -/
theorem path_same (h : Seated l seats) {ph ph' : LockCall} (hm : seats m = some a)
    (hn : seats n = some b) (ha : a.phase = some ph) (hb : b.phase = some ph')
    (hslot : ph.place.slot = ph'.place.slot) : a.path.same b.path = true := by
  obtain ⟨t, w, row, hrun, rfl, hs⟩ := h
  obtain ⟨htabled, hqueued, -⟩ := ordered_of_run hrun
  exact hqueued.path_same htabled (hs.active hm ha) (hs.active hn hb) hslot

/-- Who waits beside exclusive work has seen all that was finished in the slot. -/
theorem settled (h : Seated l seats) {ph : LockCall} {s : Slot α} (hm : seats m = some a)
    (ha : a.phase = some (.working place)) (he : a.exclusive = true) (hn : seats n = some b)
    (hb : b.phase = some ph) (hpath : a.path.same b.path = true)
    (hslot : l.slot? ph.place.slot = some s) : ph.place.seen = s.generation := by
  have heq := h.slot_eq hm hn ha hb hpath
  obtain ⟨t, w, row, hrun, rfl, hs⟩ := h
  obtain ⟨-, -, hordered, -⟩ := ordered_of_run hrun
  exact hordered.settled _ _ _ _ _ _ s (hs.active hm ha) he (hs.active hn hb) heq
    ((congrArg w.locks.slot? heq).trans hslot)

/-- The slot of a path on which a call is under way is held. -/
theorem isHeld (h : Seated l seats) (hn : seats n = some a) : l.isHeld a.path = true := by
  obtain ⟨t, w, row, hrun, rfl, hs⟩ := h
  obtain ⟨htabled, -⟩ := ordered_of_run hrun
  have hmem := List.mem_of_getElem? (hs.handle n a hn)
  obtain ⟨e, he, hsame, hslot⟩ := htabled.found _ hmem
  obtain ⟨s, hs, hholders⟩ := htabled.slot?_eq_some hmem
  have hlive : w.locks.isLive a.slot = true :=
    PathLocks.isLive_iff.mpr ⟨s, hs, Nat.ne_of_gt hholders⟩
  have hfind : w.locks.find? a.path = some a.slot :=
    (PathLocks.find?_eq_some_iff htabled.paths).mpr ⟨e, he, hsame, hslot, hlive⟩
  simp [PathLocks.isHeld, hfind]

/-- In the slot of a call some call is at its work, or its work may begin, or it is told an
outcome. -/
theorem first (h : Seated l seats) {ph : LockCall} (hn : seats n = some a)
    (hph : a.phase = some ph) :
    ∃ m b ph', seats m = some b ∧ b.phase = some ph' ∧
      ∀ place, ph' = .waiting place → l.admission place ≠ .notYet := by
  obtain ⟨t, w, row, hrun, rfl, hs⟩ := h
  obtain ⟨htabled, hqueued, -, hattended⟩ := ordered_of_run hrun
  obtain ⟨d, k, ph', s, hd, -, hslot, hfirst⟩ := hattended.first hqueued htabled (hs.active hn hph)
  obtain ⟨m, b, hm, rfl⟩ := hs.all d k ph' hd
  obtain rfl := Option.some.inj ((hs.call m b hm).symm.trans hd.1)
  refine ⟨m, b, ph', hm, hd.2, ?_⟩
  rintro place rfl
  simp only [LockCall.place] at hslot hfirst
  simp only [PathLocks.admission, hslot, hfirst, if_true]
  split
  · split <;> simp
  · simp

end Seated

end LockWorld

end CodeNav
