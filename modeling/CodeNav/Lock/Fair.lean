/-!
# Fair locks

Who wants a lock takes a ticket and waits in a queue. The ticket at the head of the queue holds the
lock; it is passed on when its owner leaves. An owner may also leave while it waits.

## Main definitions

* `FairLock`: a lock
* `FairLock.enter`, `FairLock.isHolder`, `FairLock.leave`: its use

## Main statements

* `FairLock.holder_unique`: at most one ticket holds the lock
* `FairLock.isHolder_enter`, `FairLock.isHolder_leave`: what others do does not take it away
-/

namespace CodeNav

/-- A lock with the tickets of those who hold it or wait for it. -/
structure FairLock where
  /-- The next ticket. -/
  next : Nat
  queue : List Nat
  deriving DecidableEq, Inhabited

namespace FairLock

/-- A lock that nobody wants. -/
def free : FairLock := ⟨0, []⟩

/-- A new ticket at the end of the queue. -/
def enter (l : FairLock) : Nat × FairLock :=
  (l.next, ⟨l.next + 1, l.queue ++ [l.next]⟩)

/-- Whether a ticket holds the lock. -/
def isHolder (l : FairLock) (ticket : Nat) : Bool :=
  l.queue.head? = some ticket

/-- The lock after a ticket was given back. -/
def leave (l : FairLock) (ticket : Nat) : FairLock :=
  { l with queue := l.queue.erase ticket }

/-- The tickets in the queue are different from each other and from all later ones. -/
structure WellFormed (l : FairLock) : Prop where
  nodup : l.queue.Nodup
  below : ∀ t ∈ l.queue, t < l.next

theorem wellFormed_free : free.WellFormed := ⟨.nil, by simp [free]⟩

theorem WellFormed.ticket_notMem {l : FairLock} (h : l.WellFormed) : l.enter.1 ∉ l.queue :=
  fun hmem => Nat.lt_irrefl _ (h.below _ hmem)

@[simp]
theorem mem_queue_enter {l : FairLock} {t : Nat} :
    t ∈ l.enter.2.queue ↔ t ∈ l.queue ∨ t = l.enter.1 := by
  simp [enter]

theorem WellFormed.enter {l : FairLock} (h : l.WellFormed) : l.enter.2.WellFormed where
  nodup := by
    simp only [FairLock.enter, List.nodup_append, List.nodup_cons, List.not_mem_nil,
      not_false_eq_true, List.nodup_nil, and_self, List.mem_cons, or_false, forall_eq, true_and]
    exact ⟨h.nodup, fun t ht => Nat.ne_of_lt (h.below t ht)⟩
  below t ht := by
    simp only [mem_queue_enter] at ht
    rcases ht with ht | rfl
    · exact Nat.lt_succ_of_lt (h.below t ht)
    · exact Nat.lt_succ_self _

theorem WellFormed.leave {l : FairLock} (h : l.WellFormed) (t : Nat) : (l.leave t).WellFormed where
  nodup := h.nodup.erase t
  below u hu := h.below u (List.mem_of_mem_erase hu)

theorem mem_queue_leave {l : FairLock} {t u : Nat} (h : u ≠ t) :
    u ∈ (l.leave t).queue ↔ u ∈ l.queue :=
  List.mem_erase_of_ne h

/-- Who holds a lock still holds it when others come. -/
theorem isHolder_enter {l : FairLock} {t : Nat} (h : l.isHolder t = true) :
    l.enter.2.isHolder t = true := by
  simp only [isHolder, decide_eq_true_eq, enter] at h ⊢
  simp [List.head?_append, h]

/-- Who holds a lock still holds it when others go. -/
theorem isHolder_leave {l : FairLock} {t u : Nat} (h : l.isHolder t = true) (hu : t ≠ u) :
    (l.leave u).isHolder t = true := by
  simp only [isHolder, decide_eq_true_eq] at h ⊢
  change (l.queue.erase u).head? = some t
  cases hq : l.queue with
  | nil => simp [hq] at h
  | cons v rest =>
    have hv : v = t := by simpa [hq] using h
    simp [hv, hu]

/-- At most one ticket holds a lock. -/
theorem holder_unique {l : FairLock} {s t : Nat} (hs : l.isHolder s) (ht : l.isHolder t) :
    s = t := by
  simp only [isHolder, decide_eq_true_eq] at hs ht
  exact Option.some.inj (hs.symm.trans ht)

end FairLock

end CodeNav
