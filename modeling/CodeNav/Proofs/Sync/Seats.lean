import CodeNav.Proofs.Lock.Seats
import CodeNav.Proofs.Sync.Turns

/-!
# Calls on checkouts are callers in seats

A call takes a slot for the folder of its checkout, makes one call in it and lets go of it in the end.
So the locks of the checkouts are used by callers in seats, and what is known of those is known of
calls on checkouts.

## Main definitions

* `CheckoutCall.seat?`, `CheckoutWorld.seats`: the seats of calls

## Main statements

* `CheckoutWorld.seated_of_step`, `CheckoutWorld.seated_of_run`: calls are callers in seats all along
-/

namespace CodeNav

/-- The call in the slot, when the synchronization has one. -/
def SyncPhase.lockCall? : SyncPhase → Option LockCall
  | looking => none
  | looked _ => none
  | waiting place => some (.waiting place)
  | checking place => some (.working place)
  | checked place _ => some (.working place)
  | preparing place => some (.working place)
  | running place _ => some (.working place)
  | invalidating place _ _ => some (.working place)

/-- The seat of a call, when it has a slot. -/
def CheckoutCall.seat? : CheckoutCall → Option LockSeat
  | sync ⟨t, phase⟩ => phase.lockCall?.map fun ph ↦ ⟨t.path, true, ph.place.slot, some ph⟩
  | removal ⟨_, path, .waiting place⟩ => some ⟨path, false, place.slot, some (.waiting place)⟩
  | removal ⟨_, path, .checking place⟩ => some ⟨path, false, place.slot, some (.working place)⟩
  | removal ⟨_, path, .removing place⟩ => some ⟨path, false, place.slot, some (.working place)⟩
  | removal ⟨_, path, .invalidating slot⟩ => some ⟨path, false, slot, none⟩

theorem CheckoutCall.seat?_sync {t : SyncTask} {phase : SyncPhase} {ph : LockCall}
    (h : phase.lockCall? = some ph) :
    (sync ⟨t, phase⟩).seat? = some ⟨t.path, true, ph.place.slot, some ph⟩ := by
  simp [seat?, h]

/-- The seat of a call is for the folder that the call works on. -/
theorem CheckoutCall.seat?_path {k : CheckoutCall} {a : LockSeat} (h : k.seat? = some a) :
    a.path = k.path := by
  match k with
  | .sync ⟨t, phase⟩ =>
    obtain ⟨ph, -, rfl⟩ := Option.map_eq_some_iff.mp h
    rfl
  | .removal ⟨key, path, phase⟩ => cases phase <;> exact Option.some.inj h ▸ rfl

section Seats

open LockWorld

variable {o : SyncOptions} {now n : Nat} {c c' : Checkouts} {news : SyncNews}
  {seats : Nat → Option LockSeat} {a : LockSeat} {place : PathLocks.Place}

/-- A call that is at its work comes to an outcome and lets go of its slot. -/
theorem LockWorld.Seated.conclude (h : Seated c.locks seats) (hn : seats n = some a)
    (hph : a.phase = some (.working place)) (he : a.exclusive = true) (r : SyncResult) :
    Seated (c.concluded place r).locks (Function.update seats n none) := by
  obtain ⟨hslot, -⟩ := h.slot?_eq_some hn hph
  have := (h.finish hn hph he r).letGo (Function.update_self ..) rfl
  rwa [Function.update_idem, ← hslot] at this

/-- A call gives its place back and lets go of its slot. -/
theorem LockWorld.Seated.give (h : Seated c.locks seats) (hn : seats n = some a) {ph : LockCall}
    (hph : a.phase = some ph) :
    Seated (c.given ph.place).locks (Function.update seats n none) := by
  obtain ⟨hslot, -⟩ := h.slot?_eq_some hn hph
  have := (h.leave hn hph).letGo (Function.update_self ..) rfl
  rwa [Function.update_idem, ← hslot] at this

/-- A synchronization that arrives takes a seat. -/
theorem Synchronization.seated_arrive (h : Seated c.locks seats) (hn : seats n = none)
    (t : SyncTask) :
    Seated (arrive t c).2.locks
      (Function.update seats n (CheckoutCall.sync (arrive t c).1).seat?) :=
  h.arrive hn t.path true

/-- A removal that arrives takes a seat. -/
theorem Removal.seated_arrive (h : Seated c.locks seats) (hn : seats n = none)
    (key : RepositoryKey) (path : Path) :
    Seated (arrive key path c).2.locks
      (Function.update seats n (CheckoutCall.removal (arrive key path c).1).seat?) :=
  h.arrive hn path false

/-- Nothing happens to a seat that stays as it is. -/
theorem LockWorld.Seated.stay (h : Seated c.locks seats) {b : Option LockSeat} (hn : seats n = b) :
    Seated c.locks (Function.update seats n b) := by
  rw [← hn]
  rwa [Function.update_eq_self]

namespace CheckoutCall

variable {k k' : CheckoutCall} {r : CheckoutReport}

theorem Begins.seated (h : Begins o c k c') (hs : Seated c.locks seats) (hn : seats n = none) :
    Seated c'.locks (Function.update seats n k.seat?) := by
  cases h with
  | look => exact hs.stay hn
  | arrive => exact Synchronization.seated_arrive hs hn _
  | remove key => exact Removal.seated_arrive hs hn key _

theorem Moves.seated (h : Moves o now c k news k' c') (hs : Seated c.locks seats)
    (hn : seats n = k.seat?) : Seated c'.locks (Function.update seats n k'.seat?) := by
  cases h with
  | sync h =>
    cases h with
    | arrive => exact Synchronization.seated_arrive hs hn _
    | enter hgranted => exact hs.enter hn rfl (Or.inl hgranted)
    | look => exact hs.stay hn
    | check => exact hs.stay hn
    | pull => exact hs.stay hn
    | prepare => exact hs.stay hn
    | clone => exact hs.stay hn
    | build => exact hs.stay hn
    | tell => exact hs.stay hn
  | removal h =>
    cases h with
    | enter hadmitted => exact hs.enter hn rfl (Or.inr ⟨rfl, hadmitted⟩)
    | check => exact hs.stay hn
    | remove => exact hs.leave hn rfl

theorem Returns.seated (h : Returns o now c k news r c') (hs : Seated c.locks seats)
    (hn : seats n = k.seat?) : Seated c'.locks (Function.update seats n none) := by
  cases h with
  | sync h =>
    cases h with
    | skip => exact hs.stay hn
    | share => exact hs.give hn rfl
    | find => exact hs.conclude hn rfl rfl _
    | unprepared => exact hs.conclude hn rfl rfl _
    | fail => exact hs.conclude hn rfl rfl _
    | told => exact hs.conclude hn rfl rfl _
  | removal h =>
    cases h with
    | missing => exact hs.give hn rfl
    | @fail key path place news cause fs h => exact hs.give (c := { c with fs := fs }) hn rfl
    | told => exact hs.letGo hn rfl

/-- A call that is given up lets go of its slot. -/
theorem seated_drop (hs : Seated c.locks seats) (hn : seats n = k.seat?) :
    Seated (k.drop c).locks (Function.update seats n none) := by
  match k, hn with
  | .sync ⟨t, phase⟩, hn =>
    cases phase with
    | looking => exact hs.stay hn
    | looked => exact hs.stay hn
    | waiting => exact hs.give hn rfl
    | checking => exact hs.give hn rfl
    | checked => exact hs.give hn rfl
    | preparing => exact hs.give hn rfl
    | running => exact hs.give hn rfl
    | invalidating => exact hs.give hn rfl
  | .removal ⟨key, path, phase⟩, hn =>
    cases phase with
    | waiting => exact hs.give hn rfl
    | checking => exact hs.give hn rfl
    | removing => exact hs.give hn rfl
    | invalidating => exact hs.letGo hn rfl

end CheckoutCall

end Seats

namespace CheckoutWorld

open LockWorld

variable {o : SyncOptions} {w w' : CheckoutWorld} {e : CheckoutEvent} {n : Nat} {k : CheckoutCall}

/-- The seats of the calls that have one. -/
def seats (w : CheckoutWorld) (n : Nat) : Option LockSeat :=
  w.calls[n]?.join.bind CheckoutCall.seat?

theorem Active.seats_eq (hn : w.Active n k) : w.seats n = k.seat? := by
  simp only [Active] at hn
  simp [seats, hn]

theorem active_of_seats {a : LockSeat} (h : w.seats n = some a) :
    ∃ k, w.Active n k ∧ k.seat? = some a := by
  obtain ⟨k, hk, hseat⟩ := Option.bind_eq_some_iff.mp h
  exact ⟨k, Option.join_eq_some_iff.mp hk, hseat⟩

theorem seats_put (hn : w.Active n k) (k' : Option CheckoutCall) (c : Checkouts) :
    (w.put n k' c).seats = Function.update w.seats n (k'.bind CheckoutCall.seat?) := by
  obtain ⟨hlt, -⟩ := List.getElem?_eq_some_iff.mp hn
  funext m
  by_cases hm : m = n
  · subst hm
    simp [seats, put, hlt]
  · simp [seats, put, Function.update_of_ne hm, List.getElem?_set_ne (Ne.symm hm)]

theorem seats_concat (k : CheckoutCall) (c : Checkouts) :
    CheckoutWorld.seats { w with checkouts := c, calls := w.calls ++ [some k] } =
      Function.update w.seats w.calls.length k.seat? := by
  funext m
  rcases Nat.lt_trichotomy m w.calls.length with hm | rfl | hm
  · simp [seats, Function.update_of_ne (Nat.ne_of_lt hm), List.getElem?_append_left hm]
  · simp [seats]
  · have hlate : (w.calls ++ [some k])[m]? = none := List.getElem?_eq_none (by simp; omega)
    simp [seats, Function.update_of_ne (Nat.ne_of_gt hm), hlate,
      List.getElem?_eq_none (Nat.le_of_lt hm)]

/-- Calls on checkouts are callers in seats. -/
theorem seated_of_step (h : Seated w.checkouts.locks w.seats) (hstep : Step o w e w') :
    Seated w'.checkouts.locks w'.seats := by
  cases hstep with
  | begin order hbegin =>
    rw [seats_concat]
    exact (CheckoutCall.begins_of_begin hbegin).seated h (by simp [seats])
  | refuse order hbegin =>
    obtain rfl := CheckoutCall.checkouts_eq_of_refused hbegin
    exact h
  | turn news hn hnews hturn =>
    rw [seats_put hn]
    exact (CheckoutCall.moves_of_turn hturn).seated h hn.seats_eq
  | finish news hn hnews hturn =>
    rw [seats_put hn]
    exact (CheckoutCall.returns_of_turn hturn).seated h hn.seats_eq
  | drop hn =>
    rw [seats_put hn]
    exact CheckoutCall.seated_drop h hn.seats_eq
  | print text hn hk => exact h
  | change fs => exact h
  | pass time => exact h

/-- Calls on checkouts are callers in seats all along. -/
theorem seated_of_run {fs : FileSystem} {t : List CheckoutEvent} (h : Run (Step o) (start fs) t w) :
    Seated w.checkouts.locks w.seats :=
  h.invariant (P := fun _ w ↦ Seated w.checkouts.locks w.seats) seated_none
    fun _ _ _ _ _ hseated hstep ↦ seated_of_step hseated hstep

end CheckoutWorld

end CodeNav
