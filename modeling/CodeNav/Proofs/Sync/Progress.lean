import CodeNav.Proofs.Sync.Seats

/-!
# Progress of calls on checkouts

As long as a call is under way some call can go on, if only those who were asked answer: nobody waits
for somebody who waits in turn. A call takes at most nine turns, so there are only so many turns as
there are calls to take them.

## Main definitions

* `CheckoutCall.left`: how many turns a call may still take

## Main statements

* `CheckoutWorld.goes_on_of_run`: some call can go on
* `CheckoutWorld.turns_le_of_run`: how many turns are taken
* `CheckoutWorld.accounted_of_run`: a call that is no more under way has returned or was given up
-/

namespace CodeNav

/-! ### How a call can go on -/

/-- What may be answered when something is asked for. -/
def SyncWant.answer : SyncWant → SyncNews
  | nothing => .nothing
  | command _ _ => .ended (.error "")
  | invalidation _ => .invalidated

theorem SyncWant.answers_answer (want : SyncWant) : want.answer.Answers want := by
  cases want <;> trivial

/-- A synchronization that was answered goes on unless it waits for its turn in the slot. -/
theorem Synchronization.turn_ne_parked {c : Checkouts} (o : SyncOptions) (now : Nat)
    (s : Synchronization)
    (h : ∀ place, s.phase = .waiting place → c.locks.admission place ≠ .notYet)
    (until? : Option Nat) : s.turn o now s.wants.answer c ≠ .parked until? := by
  obtain ⟨t, phase⟩ := s
  cases phase with
  | looking => simp [turn]
  | looked present =>
    simp only [turn]
    split <;> simp
  | waiting place =>
    have hadmitted := h place rfl
    simp only [turn]
    split <;> simp_all
  | checking => simp [turn]
  | checked place present =>
    simp only [turn]
    split
    · simp [conclude]
    · split <;> simp
  | preparing place =>
    simp only [turn]
    split
    · simp
    · split <;> simp [failWith, conclude]
  | running => simp [turn, wants, SyncWant.answer, commandEnded, failWith, conclude]
  | invalidating => simp [turn, wants, SyncWant.answer, conclude]

/-- A removal that was answered goes on unless it waits for its turn in the slot. -/
theorem Removal.turn_ne_parked {c : Checkouts} (r : Removal)
    (h : ∀ place, r.phase = .waiting place → c.locks.admission place ≠ .notYet)
    (until? : Option Nat) : r.turn r.wants.answer c ≠ .parked until? := by
  obtain ⟨key, path, phase⟩ := r
  cases phase with
  | waiting place =>
    have hadmitted := h place rfl
    simp [turn]
  | checking place =>
    simp only [turn]
    split <;> simp [failWith]
  | removing place =>
    simp only [turn]
    split <;> simp [failWith]
  | invalidating => simp [turn, wants, SyncWant.answer]

namespace CheckoutCall

variable {o : SyncOptions} {now : Nat} {c c' : Checkouts} {news : SyncNews} {k k' : CheckoutCall}
  {r : CheckoutReport}

/-- A call can go on once those whom it has asked have answered. -/
def CanGoOn (o : SyncOptions) (now : Nat) (c : Checkouts) (k : CheckoutCall) : Prop :=
  ∃ news : SyncNews, news.Answers k.wants ∧ ∀ until?, k.turn o now news c ≠ .parked until?

/-- A call can go on unless it waits for its turn in the slot. -/
theorem canGoOn (h : ∀ a place, k.seat? = some a → a.phase = some (.waiting place) →
    c.locks.admission place ≠ .notYet) : k.CanGoOn o now c := by
  refine ⟨k.wants.answer, k.wants.answers_answer, ?_⟩
  match k, h with
  | .sync ⟨t, phase⟩, h =>
    refine Turn.map_ne_parked (Synchronization.turn_ne_parked o now _ ?_) _ _
    rintro place rfl
    exact h _ place rfl rfl
  | .removal ⟨key, path, phase⟩, h =>
    refine Turn.map_ne_parked (Removal.turn_ne_parked _ ?_) _ _
    rintro place rfl
    exact h _ place rfl rfl

/-! ### How often a call goes on -/

/-- How many turns a call may still take. -/
def left : CheckoutCall → Nat
  | sync ⟨_, .looking⟩ => 9
  | sync ⟨_, .looked _⟩ => 8
  | sync ⟨_, .waiting _⟩ => 7
  | sync ⟨_, .checking _⟩ => 6
  | sync ⟨_, .checked _ _⟩ => 5
  | sync ⟨_, .preparing _⟩ => 4
  | sync ⟨_, .running _ run⟩ => if run.isBuild then 2 else 3
  | sync ⟨_, .invalidating _ _ _⟩ => 1
  | removal ⟨_, _, .waiting _⟩ => 4
  | removal ⟨_, _, .checking _⟩ => 3
  | removal ⟨_, _, .removing _⟩ => 2
  | removal ⟨_, _, .invalidating _⟩ => 1

theorem Begins.left_le (h : Begins o c k c') : k.left ≤ 9 := by
  cases h <;> simp [left, Synchronization.arrive, Removal.arrive]

theorem left_pos (k : CheckoutCall) : 1 ≤ k.left := by
  unfold left
  split <;> (try split) <;> omega

theorem Moves.left_lt (h : Moves o now c k news k' c') : k'.left < k.left := by
  cases h with
  | sync h =>
    cases h with
    | build hsuccess hgit => simp [left, Synchronization.run, hgit]
    | tell =>
      simp only [left]
      split <;> omega
    | _ => simp [left, Synchronization.arrive, Synchronization.run]
  | removal h => cases h <;> simp [left]

end CheckoutCall

/-- A call takes a turn. -/
def CheckoutEvent.isTurn : CheckoutEvent → Bool
  | moved _ _ _ _ => true
  | returned _ _ _ _ => true
  | _ => false

namespace CheckoutWorld

variable {o : SyncOptions} {fs : FileSystem} {w w' : CheckoutWorld} {events : List CheckoutEvent}
  {e : CheckoutEvent} {n : Nat} {k : CheckoutCall}

/-- As long as a call is under way some call can go on. -/
theorem goes_on_of_run (h : Run (Step o) (start fs) events w) (hn : w.Active n k) :
    ∃ m k', w.Active m k' ∧ k'.CanGoOn o w.now w.checkouts := by
  have hseated := seated_of_run h
  by_cases hwaits : ∃ a place, k.seat? = some a ∧ a.phase = some (.waiting place)
  · obtain ⟨a, place, ha, hphase⟩ := hwaits
    obtain ⟨m, b, ph, hm, hb, hfirst⟩ := hseated.first (hn.seats_eq.trans ha) hphase
    obtain ⟨k', hk', hseat⟩ := active_of_seats hm
    refine ⟨m, k', hk', CheckoutCall.canGoOn fun a' place' ha' hphase' ↦ ?_⟩
    obtain rfl := Option.some.inj (hseat.symm.trans ha')
    exact hfirst place' (Option.some.inj (hb.symm.trans hphase'))
  · refine ⟨n, k, hn, CheckoutCall.canGoOn fun a place ha hphase ↦ ?_⟩
    exact absurd ⟨a, place, ha, hphase⟩ hwaits

/-! ### Counting turns -/

/-- How many turns calls may still take, none when they are over. -/
def leftOf : List (Option CheckoutCall) → Nat
  | [] => 0
  | k :: rest => k.elim 0 CheckoutCall.left + leftOf rest

theorem leftOf_concat (l : List (Option CheckoutCall)) (k : CheckoutCall) :
    leftOf (l ++ [some k]) = leftOf l + k.left := by
  induction l with
  | nil => simp [leftOf]
  | cons x rest ih =>
    rw [List.cons_append, leftOf, leftOf, ih, Nat.add_assoc]

theorem leftOf_set {l : List (Option CheckoutCall)} (h : l[n]? = some (some k))
    (k' : Option CheckoutCall) :
    leftOf (l.set n k') + k.left = leftOf l + k'.elim 0 CheckoutCall.left := by
  induction l generalizing n with
  | nil => simp at h
  | cons x rest ih =>
    cases n with
    | zero =>
      obtain rfl : x = some k := by simpa using h
      simp only [List.set_cons_zero, leftOf, Option.elim_some]
      omega
    | succ n =>
      have := ih (by simpa using h)
      simp only [List.set_cons_succ, leftOf]
      omega

/-- How many turns the calls that are under way may still take. -/
def turnsLeft (w : CheckoutWorld) : Nat :=
  leftOf w.calls

theorem turnsLeft_put (hn : w.Active n k) (k' : Option CheckoutCall) (c : Checkouts) :
    (w.put n k' c).turnsLeft + k.left = w.turnsLeft + k'.elim 0 CheckoutCall.left :=
  leftOf_set hn k'

theorem length_put (n : Nat) (k' : Option CheckoutCall) (c : Checkouts) :
    (w.put n k' c).calls.length = w.calls.length :=
  List.length_set

/-- Every turn of a call is one less that it may still take. -/
theorem turnsLeft_of_step (h : Step o w e w') :
    w'.turnsLeft + [e].countP CheckoutEvent.isTurn + 9 * w.calls.length ≤
      w.turnsLeft + 9 * w'.calls.length := by
  -- An event is one turn, or none.
  have hone (h : e.isTurn = true) : [e].countP CheckoutEvent.isTurn = 1 := by simp [h]
  have hnone (h : e.isTurn = false) : [e].countP CheckoutEvent.isTurn = 0 := by simp [h]
  cases h with
  | @begin k c order hbegin =>
    have hle := (CheckoutCall.begins_of_begin hbegin).left_le
    rw [hnone rfl, turnsLeft, leftOf_concat, List.length_append, List.length_singleton, turnsLeft]
    omega
  | @turn n k k' c news hn hnews hturn =>
    have hleft := turnsLeft_put hn (some k') c
    have hlt := (CheckoutCall.moves_of_turn hturn).left_lt
    rw [Option.elim_some] at hleft
    rw [hone rfl, length_put]
    omega
  | @finish n k r c news hn hnews hturn =>
    have hleft := turnsLeft_put hn none c
    have hpos := k.left_pos
    rw [Option.elim_none] at hleft
    rw [hone rfl, length_put]
    omega
  | @drop n k hn =>
    have hleft := turnsLeft_put hn none (k.drop w.checkouts)
    rw [Option.elim_none] at hleft
    rw [hnone rfl, length_put]
    omega
  | refuse => exact (hnone rfl).symm ▸ Nat.le_refl _
  | print => exact (hnone rfl).symm ▸ Nat.le_refl _
  | change => exact (hnone rfl).symm ▸ Nat.le_refl _
  | pass => exact (hnone rfl).symm ▸ Nat.le_refl _

/-- There are at most nine turns for every call. -/
theorem turns_le_of_run (h : Run (Step o) (start fs) events w) :
    events.countP CheckoutEvent.isTurn + w.turnsLeft ≤ 9 * w.calls.length := by
  induction h with
  | nil => simp [turnsLeft, leftOf, start]
  | snoc h hstep ih =>
    have := turnsLeft_of_step hstep
    rw [List.countP_append]
    omega

/-- A call that has begun is under way, or has returned, or was given up. -/
theorem accounted_of_run (h : Run (Step o) (start fs) events w) (hn : n < w.calls.length) :
    (∃ k, w.Active n k) ∨ (∃ k news report, .returned n k news report ∈ events) ∨
      ∃ k, .dropped n k ∈ events := by
  induction h with
  | nil => simp [start] at hn
  | @snoc events e u v h hstep ih =>
    -- Who was accounted for before the step is so after it, if a call that was under way still is.
    have later (hn : n < u.calls.length) (hactive : ∀ k, u.Active n k → (∃ k, v.Active n k) ∨
        (∃ k news report, e = .returned n k news report) ∨ ∃ k, e = .dropped n k) :
        (∃ k, v.Active n k) ∨ (∃ k news report, .returned n k news report ∈ events ++ [e]) ∨
          ∃ k, .dropped n k ∈ events ++ [e] := by
      rcases ih hn with ⟨k, hk⟩ | ⟨k, news, report, he⟩ | ⟨k, he⟩
      · rcases hactive k hk with hk | ⟨k, news, report, rfl⟩ | ⟨k, rfl⟩
        · exact Or.inl hk
        · exact Or.inr (Or.inl ⟨k, news, report, by simp⟩)
        · exact Or.inr (Or.inr ⟨k, by simp⟩)
      · exact Or.inr (Or.inl ⟨k, news, report, List.mem_append_left _ he⟩)
      · exact Or.inr (Or.inr ⟨k, List.mem_append_left _ he⟩)
    by_cases hcall : e.call? = some n
    · cases hstep with
      | @turn m k k' c news hm =>
        obtain rfl : m = n := Option.some.inj hcall
        exact Or.inl ⟨k', (active_put hm).mpr (Or.inl ⟨rfl, rfl⟩)⟩
      | @finish m k r c news hm =>
        obtain rfl : m = n := Option.some.inj hcall
        exact Or.inr (Or.inl ⟨k, news, r, by simp⟩)
      | @drop m k hm =>
        obtain rfl : m = n := Option.some.inj hcall
        exact Or.inr (Or.inr ⟨k, by simp⟩)
      | _ => simp [CheckoutEvent.call?] at hcall
    · rcases Nat.lt_or_ge n u.calls.length with hlt | hge
      · exact later hlt fun k hk ↦ Or.inl ⟨k, hstep.active_of_ne hk hcall⟩
      · cases hstep with
        | @begin k c order hbegin =>
          have hlast : n = u.calls.length := by simp at hn; omega
          exact Or.inl ⟨k, getElem?_concat_eq_some.mpr (Or.inr ⟨hlast, rfl⟩)⟩
        | _ => simp [put] at hn; omega

end CheckoutWorld

end CodeNav
