import CodeNav.Proofs.Sync.Seats

/-!
# Outcomes that are kept for those who wait

A synchronization whose work has come to an outcome leaves it in the slot of its checkout's folder; a
synchronization that has waited there meanwhile returns the outcome as its own. Where such an outcome
came from can be read off the events: it was kept by a synchronization of the same folder, after the
one that shares it had arrived. What is known of the time since the outcome was kept is known when it
is shared.

## Main definitions

* `CheckoutEvent.Arrives`, `CheckoutEvent.Records`: a call arrives in a slot, and leaves an outcome
* `CheckoutWorld.Overtaken`: a call that waits is about to share an outcome
* `CheckoutWorld.Inherits`: where the outcome came from

## Main statements

* `CheckoutWorld.Step.sameOutcomes_or_records`: only the outcome of work is ever left in a slot
* `CheckoutWorld.inherits_of_run`: who is about to share an outcome has waited while it was kept
-/

namespace CodeNav

namespace PathLocks

variable {α : Type} {l l' : PathLocks α}

/-- The outcomes are those of before, but in new slots, in which there is none. -/
def SameOutcomes (l l' : PathLocks α) : Prop :=
  ∀ n s, l'.slot? n = some s →
    (∃ s₀, l.slot? n = some s₀ ∧ s.last = s₀.last ∧ s.generation = s₀.generation) ∨
      s.last = Option.none

theorem sameOutcomes_refl (l : PathLocks α) : l.SameOutcomes l :=
  fun _ s hs ↦ Or.inl ⟨s, hs, rfl, rfl⟩

theorem SameOutcomes.trans {l'' : PathLocks α} (h : l.SameOutcomes l')
    (h' : l'.SameOutcomes l'') : l.SameOutcomes l'' := by
  intro n s hs
  rcases h' n s hs with ⟨s', hs', hlast', hgen'⟩ | hnone
  · rcases h n s' hs' with ⟨s₀, hs₀, hlast, hgen⟩ | hnone
    · exact Or.inl ⟨s₀, hs₀, hlast'.trans hlast, hgen'.trans hgen⟩
    · exact Or.inr (hlast'.trans hnone)
  · exact Or.inr hnone

theorem Extends.sameOutcomes (h : l.Extends l') : l.SameOutcomes l' := by
  intro n s hs
  rcases h n s hs with ⟨s₀, hs₀, -, hlast, hgen⟩ | ⟨-, rfl⟩
  · exact Or.inl ⟨s₀, hs₀, hlast, hgen⟩
  · exact Or.inr rfl

theorem sameOutcomes_change (l : PathLocks α) (n : Nat) {f : Slot α → Slot α}
    (hf : ∀ s, (f s).last = s.last ∧ (f s).generation = s.generation) :
    l.SameOutcomes (l.change n f) := by
  intro m s hs
  rcases slot?_change_eq_some.mp hs with ⟨-, s₀, hs₀, rfl⟩ | ⟨-, hs⟩
  · exact Or.inl ⟨s₀, hs₀, hf s₀⟩
  · exact Or.inl ⟨s, hs, rfl, rfl⟩

theorem sameOutcomes_leave (l : PathLocks α) (place : Place) : l.SameOutcomes (l.leave place) :=
  l.sameOutcomes_change _ fun _ ↦ ⟨rfl, rfl⟩

theorem sameOutcomes_arrive (l : PathLocks α) (n : Nat) : l.SameOutcomes (l.arrive n).2 := by
  unfold arrive
  split
  · exact l.sameOutcomes_refl
  · exact l.sameOutcomes_change _ fun _ ↦ ⟨rfl, rfl⟩

/-- Who arrives has seen all outcomes. -/
theorem seen_arrive {n : Nat} {s : Slot α} (hs : (l.arrive n).2.slot? n = some s) :
    s.generation = (l.arrive n).1.seen := by
  cases hslot : l.slot? n with
  | none => simp [arrive, hslot] at hs
  | some s₀ =>
    rw [arrive, hslot] at hs ⊢
    obtain rfl := Option.some.inj ((slot?_change_self _ hslot).symm.trans hs)
    rfl

/-- After work was finished in a slot, its outcome is there and the others are as before. -/
theorem finish_eq_some {place : Place} {x : α} {n : Nat} {s : Slot α}
    (hs : ((l.finish place x).release place.slot).slot? n = some s) :
    (n = place.slot ∧ s.last = some x) ∨
      (n ≠ place.slot ∧ ∃ s₀, l.slot? n = some s₀ ∧ s.last = s₀.last ∧
        s.generation = s₀.generation) := by
  rcases slot?_change_eq_some.mp hs with ⟨hn, s', hs', rfl⟩ | ⟨hn, hs⟩
  · obtain ⟨-, s₀, -, rfl⟩ | ⟨hn', -⟩ := slot?_change_eq_some.mp hs'
    · exact Or.inl ⟨hn, rfl⟩
    · exact absurd hn hn'
  · obtain ⟨hn', -⟩ | ⟨-, hs⟩ := slot?_change_eq_some.mp hs
    · exact absurd hn' hn
    · exact Or.inr ⟨hn, s, hs, rfl, rfl⟩

end PathLocks

namespace CheckoutEvent

/-- A synchronization arrives in the slot of its checkout's folder. -/
inductive Arrives (n : Nat) : CheckoutEvent → Prop
  | atOnce {t : SyncTask} {place : PathLocks.Place} :
      Arrives n (.began n (.sync ⟨t, .waiting place⟩))
  | afterLooking {t : SyncTask} {present : Bool} {news : SyncNews} {place : PathLocks.Place} :
      Arrives n (.moved n (.sync ⟨t, .looked present⟩) news (.sync ⟨t, .waiting place⟩))

/-- The work of a synchronization has come to an outcome, which is kept for those who wait. -/
inductive Records (n : Nat) (t : SyncTask) (x : SyncResult) : CheckoutEvent → Prop
  | intro {phase : SyncPhase} {place : PathLocks.Place} {news : SyncNews}
      (h : phase.lockCall? = some (.working place)) :
      Records n t x (.returned n (.sync ⟨t, phase⟩) news (.synchronized x))

end CheckoutEvent

/-! ### What happens to outcomes -/

section SameOutcomes

open PathLocks

variable {o : SyncOptions} {now : Nat} {c c' : Checkouts} {news : SyncNews} {k k' : CheckoutCall}

theorem sameOutcomes_given (c : Checkouts) (place : Place) :
    c.locks.SameOutcomes (c.given place).locks :=
  (c.locks.sameOutcomes_leave place).trans (extends_release _ _).sameOutcomes

/-- A call that takes a slot and arrives there leaves no outcome. -/
theorem sameOutcomes_hold_arrive (l : PathLocks SyncResult) (p : Path) :
    l.SameOutcomes ((l.hold p).2.arrive (l.hold p).1).2 :=
  (l.extends_hold p).sameOutcomes.trans (sameOutcomes_arrive _ _)

namespace CheckoutCall

theorem Begins.sameOutcomes (h : Begins o c k c') : c.locks.SameOutcomes c'.locks := by
  cases h with
  | look => exact c.locks.sameOutcomes_refl
  | arrive => exact sameOutcomes_hold_arrive _ _
  | remove key => exact sameOutcomes_hold_arrive _ _

theorem Moves.sameOutcomes (h : Moves o now c k news k' c') : c.locks.SameOutcomes c'.locks := by
  cases h with
  | sync h =>
    cases h with
    | arrive => exact sameOutcomes_hold_arrive _ _
    | _ => exact c.locks.sameOutcomes_refl
  | removal h =>
    cases h with
    | remove => exact c.locks.sameOutcomes_leave _
    | _ => exact c.locks.sameOutcomes_refl

/-- A call that returns leaves no outcome, or it is a synchronization that returns that of its
work. -/
theorem Returns.sameOutcomes_or_concludes {r : CheckoutReport} (h : Returns o now c k news r c') :
    c.locks.SameOutcomes c'.locks ∨ ∃ t phase place x, k = .sync ⟨t, phase⟩ ∧
      r = .synchronized x ∧ phase.lockCall? = some (.working place) ∧
      c'.locks = (c.locks.finish place x).release place.slot := by
  cases h with
  | sync h =>
    cases h with
    | skip => exact Or.inl c.locks.sameOutcomes_refl
    | share => exact Or.inl (sameOutcomes_given c _)
    | find => exact Or.inr ⟨_, _, _, _, rfl, rfl, rfl, rfl⟩
    | unprepared => exact Or.inr ⟨_, _, _, _, rfl, rfl, rfl, rfl⟩
    | fail => exact Or.inr ⟨_, _, _, _, rfl, rfl, rfl, rfl⟩
    | told => exact Or.inr ⟨_, _, _, _, rfl, rfl, rfl, rfl⟩
  | removal h =>
    cases h with
    | missing => exact Or.inl (sameOutcomes_given c _)
    | fail => exact Or.inl (sameOutcomes_given c _)
    | told => exact Or.inl (extends_release _ _).sameOutcomes

theorem sameOutcomes_drop (k : CheckoutCall) (c : Checkouts) :
    c.locks.SameOutcomes (k.drop c).locks := by
  match k with
  | .sync ⟨t, phase⟩ =>
    cases phase with
    | looking => exact c.locks.sameOutcomes_refl
    | looked => exact c.locks.sameOutcomes_refl
    | _ => exact sameOutcomes_given c _
  | .removal ⟨key, path, phase⟩ =>
    cases phase with
    | invalidating => exact (extends_release _ _).sameOutcomes
    | _ => exact sameOutcomes_given c _

end CheckoutCall

end SameOutcomes

namespace CheckoutWorld

variable {o : SyncOptions} {w w' : CheckoutWorld} {e : CheckoutEvent} {n : Nat} {t : SyncTask}
  {place : PathLocks.Place} {x : SyncResult}

/-- A step leaves all outcomes as they are, or adds that of work which is over. -/
theorem Step.sameOutcomes_or_records (h : Step o w e w') :
    w.checkouts.locks.SameOutcomes w'.checkouts.locks ∨ ∃ n t phase place x, e.Records n t x ∧
      w.Active n (.sync ⟨t, phase⟩) ∧ phase.lockCall? = some (.working place) ∧
      w'.checkouts.locks = (w.checkouts.locks.finish place x).release place.slot := by
  cases h with
  | begin order hbegin => exact Or.inl (CheckoutCall.begins_of_begin hbegin).sameOutcomes
  | refuse order hbegin =>
    obtain rfl := CheckoutCall.checkouts_eq_of_refused hbegin
    exact Or.inl w.checkouts.locks.sameOutcomes_refl
  | turn news hn hnews hturn => exact Or.inl (CheckoutCall.moves_of_turn hturn).sameOutcomes
  | finish news hn hnews hturn =>
    rcases (CheckoutCall.returns_of_turn hturn).sameOutcomes_or_concludes with
      houtcomes | ⟨t, phase, place, x, rfl, rfl, hwork, hlocks⟩
    · exact Or.inl houtcomes
    · exact Or.inr ⟨_, t, phase, place, x, .intro hwork, hn, hwork, hlocks⟩
  | @drop n k hn => exact Or.inl (k.sameOutcomes_drop w.checkouts)
  | print text hn hk => exact Or.inl w.checkouts.locks.sameOutcomes_refl
  | change fs => exact Or.inl w.checkouts.locks.sameOutcomes_refl
  | pass time => exact Or.inl w.checkouts.locks.sameOutcomes_refl

/-- Who has just arrived has seen all outcomes. -/
theorem seen_of_arrive {t' : SyncTask} {c : Checkouts}
    (h : (⟨t, .waiting place⟩ : Synchronization) = (Synchronization.arrive t' c).1)
    {s : Slot SyncResult} (hs : (Synchronization.arrive t' c).2.locks.slot? place.slot = some s) :
    s.generation = place.seen := by
  obtain ⟨-, rfl⟩ : t = t' ∧ place = _ := by simpa [Synchronization.arrive] using h
  rw [PathLocks.arrive_slot] at hs
  exact PathLocks.seen_arrive hs

/-- A synchronization that waits has waited before, or arrives and has seen all outcomes. -/
theorem Step.waiting (h : Step o w e w') (hn : w'.Active n (.sync ⟨t, .waiting place⟩)) :
    w.Active n (.sync ⟨t, .waiting place⟩) ∨ (e.Arrives n ∧
      ∀ s, w'.checkouts.locks.slot? place.slot = some s → s.generation = place.seen) := by
  rcases h.active hn with hn | ⟨rfl, hbegins⟩ | ⟨k, news, rfl, -, hmoves⟩
  · exact Or.inl hn
  · refine Or.inr ⟨.atOnce, fun s hs ↦ ?_⟩
    rcases hbegins.sync with ⟨-, hlooking⟩ | ⟨-, harrive, hc⟩
    · simp at hlooking
    · exact seen_of_arrive harrive (hc ▸ hs)
  · generalize hk : CheckoutCall.sync ⟨t, .waiting place⟩ = k' at hmoves ⊢
    generalize hc : w'.checkouts = c at hmoves
    cases hmoves with
    | removal => simp at hk
    | sync hmoves =>
      cases hmoves with
      | arrive =>
        refine Or.inr ⟨.afterLooking, fun s hs ↦ ?_⟩
        exact seen_of_arrive (CheckoutCall.sync.inj hk) (hc ▸ hs)
      | _ => simp [Synchronization.run] at hk

/-- A call that waits is about to share an outcome. -/
structure Overtaken (w : CheckoutWorld) (n : Nat) (t : SyncTask) (place : PathLocks.Place)
    (x : SyncResult) : Prop where
  waits : w.Active n (.sync ⟨t, .waiting place⟩)
  kept : ∃ s, w.checkouts.locks.slot? place.slot = some s ∧ s.last = some x ∧
    s.generation ≠ place.seen

/-- An outcome for a folder was kept after a call had arrived, and `P` is true of what has happened
since then. -/
def Inherits (P : List CheckoutEvent → Prop) (n : Nat) (p : Path) (x : SyncResult)
    (events : List CheckoutEvent) : Prop :=
  ∃ early arrival between m t record late,
    events = early ++ arrival :: (between ++ record :: late) ∧ arrival.Arrives n ∧
      record.Records m t x ∧ t.path.same p = true ∧ P late

theorem Inherits.mono {P Q : List CheckoutEvent → Prop} {p : Path} {events : List CheckoutEvent}
    (h : Inherits P n p x events) (hPQ : ∀ late, P late → Q (late ++ [e])) :
    Inherits Q n p x (events ++ [e]) := by
  obtain ⟨early, arrival, between, m, t, record, late, rfl, harrives, hrecords, hpath, hlate⟩ := h
  exact ⟨early, arrival, between, m, t, record, late ++ [e], by simp, harrives, hrecords, hpath,
    hPQ late hlate⟩

theorem Inherits.imp {P Q : List CheckoutEvent → Prop} {p : Path} {events : List CheckoutEvent}
    (h : Inherits P n p x events) (hPQ : ∀ late, P late → Q late) : Inherits Q n p x events := by
  obtain ⟨early, arrival, between, m, t, record, late, rfl, harrives, hrecords, hpath, hlate⟩ := h
  exact ⟨early, arrival, between, m, t, record, late, rfl, harrives, hrecords, hpath, hPQ late hlate⟩

/-- Who waits has arrived. -/
theorem arrived_of_run {fs : FileSystem} {events : List CheckoutEvent}
    (h : Run (Step o) (start fs) events w) (hn : w.Active n (.sync ⟨t, .waiting place⟩)) :
    ∃ e ∈ events, e.Arrives n := by
  induction h with
  | nil => simp [Active, start] at hn
  | snoc h hstep ih =>
    rcases hstep.waiting hn with hn | ⟨harrives, -⟩
    · obtain ⟨e, he, harrives⟩ := ih hn
      exact ⟨e, List.mem_append_left _ he, harrives⟩
    · exact ⟨_, List.mem_append_right _ List.mem_cons_self, harrives⟩

/-- Who is about to share an outcome was so before the step, or it has just been kept. -/
theorem Overtaken.of_step (hseated : LockWorld.Seated w.checkouts.locks w.seats)
    (hstep : Step o w e w') (h : w'.Overtaken n t place x) :
    w.Overtaken n t place x ∨ (w.Active n (.sync ⟨t, .waiting place⟩) ∧
      ∃ m t', e.Records m t' x ∧ t'.path.same t.path = true) := by
  obtain ⟨hwaits, s, hs, hlast, hgen⟩ := h
  rcases hstep.waiting hwaits with hn | ⟨-, hseen⟩
  · rcases hstep.sameOutcomes_or_records with
      houtcomes | ⟨m, t', phase, place', y, hrecords, hm, hwork, hlocks⟩
    · rcases houtcomes _ s hs with ⟨s₀, hs₀, hlast₀, hgen₀⟩ | hnone
      · exact Or.inl ⟨hn, s₀, hs₀, hlast₀ ▸ hlast, hgen₀ ▸ hgen⟩
      · exact absurd (hlast.symm.trans hnone) (by simp)
    · rw [hlocks] at hs
      rcases PathLocks.finish_eq_some hs with ⟨hslot, hlast'⟩ | ⟨-, s₀, hs₀, hlast₀, hgen₀⟩
      · obtain rfl := Option.some.inj (hlast.symm.trans hlast')
        refine Or.inr ⟨hn, m, t', hrecords, ?_⟩
        have hseat := hm.seats_eq.trans (CheckoutCall.seat?_sync hwork)
        exact hseated.path_same hseat hn.seats_eq rfl rfl hslot.symm
      · exact Or.inl ⟨hn, s₀, hs₀, hlast₀ ▸ hlast, hgen₀ ▸ hgen⟩
  · exact absurd (hseen s hs) hgen

/-- While a synchronization of a folder is at its work, nobody is about to share an outcome there. -/
theorem Overtaken.not_working (hseated : LockWorld.Seated w.checkouts.locks w.seats)
    (h : w.Overtaken n t place x) {m : Nat} {t' : SyncTask} {phase : SyncPhase}
    {place' : PathLocks.Place} (hm : w.Active m (.sync ⟨t', phase⟩))
    (hwork : phase.lockCall? = some (.working place')) (hpath : t'.path.same t.path = true) :
    False := by
  obtain ⟨hwaits, s, hs, -, hgen⟩ := h
  have hseat := hm.seats_eq.trans (CheckoutCall.seat?_sync hwork)
  exact hgen (hseated.settled hseat rfl rfl hwaits.seats_eq rfl hpath hs).symm

/-- Who is about to share an outcome has waited while it was kept. If something is true when an
outcome is kept, and every step leaves it true as long as somebody is about to share the outcome, it
is true then. -/
theorem inherits_of_run {S : CheckoutWorld → CheckoutEvent → CheckoutWorld → Prop} {fs : FileSystem}
    {events : List CheckoutEvent} {P : List CheckoutEvent → SyncResult → CheckoutWorld → Prop}
    (hS : ∀ u e v, S u e v → Step o u e v)
    (hkept : ∀ early u e v m t x, Run S (start fs) early u → S u e v → e.Records m t x → P [] x v)
    (hstays : ∀ early u e v m t place x late, Run S (start fs) early u → S u e v →
      u.Overtaken m t place x → P late x u → P (late ++ [e]) x v)
    (h : Run S (start fs) events w) (hn : w.Overtaken n t place x) :
    Inherits (fun late ↦ P late x w) n t.path x events := by
  induction h with
  | nil => simpa [Active, start] using hn.waits
  | @snoc events e u v h hstep ih =>
    have hrun : Run (Step o) (start fs) events u := h.mono hS
    rcases Overtaken.of_step (seated_of_run hrun) (hS _ _ _ hstep) hn with
      hover | ⟨hwaits, m, t', hrecords, hpath⟩
    · exact (ih hover).mono fun late ↦ hstays _ _ _ _ _ _ _ _ late h hstep hover
    · obtain ⟨arrival, hmem, harrives⟩ := arrived_of_run hrun hwaits
      obtain ⟨early, between, rfl⟩ := List.append_of_mem hmem
      exact ⟨early, arrival, between, m, t', e, [], by simp, harrives, hrecords, hpath,
        hkept _ _ _ _ _ _ _ h hstep hrecords⟩

end CheckoutWorld

end CodeNav
