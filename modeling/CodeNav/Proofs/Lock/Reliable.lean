import CodeNav.Proofs.Lock.Outcomes

/-!
# What callers of the locks may rely on

In every history, work on a path is done by one call at a time, and a call is told the truth about
who did the work: either it did the work itself, or somebody else did while it waited. Who comes
while exclusive work is under way that then is done does not do it again. Work that was given up, or
that was only to be kept apart, is nobody's outcome.

## Main definitions

* `LockWorld.Invariant`: the invariants of the locks together
* `LockWorld.Reliable`: what callers may rely on

## Main statements

* `LockWorld.reliable_of_run`: callers may rely on it in every run
-/

namespace CodeNav

namespace LockWorld

variable {α : Type} {w w' : LockWorld α} {t before after : List (LockEvent α)} {e : LockEvent α}
  {c : Nat}

/-- The invariants of the locks. -/
structure Invariant (t : List (LockEvent α)) (w : LockWorld α) : Prop where
  tabled : w.Tabled
  queued : w.Queued
  recorded : Recorded t w
  counted : Counted t w

/-- Every run keeps the invariants. -/
theorem invariant_of_run (h : Run Step empty t w) : Invariant t w := by
  refine h.invariant ⟨tabled_empty, queued_empty, recorded_empty, counted_empty⟩ ?_
  intro t u e v _ hu hstep
  exact
    { tabled := hu.tabled.step hstep
      queued := hu.queued.step hu.tabled hstep
      recorded := hu.recorded.step hstep
      counted := hu.counted.step hu.tabled hu.queued hstep }

/-- What callers may rely on, after a history of events. -/
structure Reliable (t : List (LockEvent α)) (w : LockWorld α) : Prop where
  /-- At most one call is at its work on a path. -/
  one_works : ∀ c d p q, w.Works c p → w.Works d q → p.same q = true → c = d
  /-- Who is told that it did the work has done it, with this outcome. -/
  ran : ∀ before e after c x, t = before ++ e :: after → e.gives = some (c, .ran x) →
    ∃ p, e = .ended c p x (.ran x) ∧ .called c p true ∈ before ∧ .entered c p true ∈ before
  /-- Who shares an outcome shares the latest one on its path, which is that of another call and was
  reached after it arrived. -/
  joined : ∀ before e after c x, t = before ++ e :: after → e.gives = some (c, .joined x) →
    ∃ p first between d q later, e = .shared c p (.joined x) ∧
      before = first ++ .called c p true :: (between ++ .ended d q x (.ran x) :: later) ∧
      d ≠ c ∧ q.same p = true ∧ LockEvent.outcomesOn p later = []
  /-- Who arrives while exclusive work on its path is under way that comes to an outcome does not
  do the work. -/
  spared : ∀ before after c d p q x r, t = before ++ .called c p true :: after →
    .entered d q true ∈ before → .ended d q x r ∈ after → q.same p = true →
    ∀ p' b, .entered c p' b ∉ t
  /-- An outcome that somebody is told is that of exclusive work, which was not given up. -/
  complete : ∀ e ∈ t, ∀ c x, e.gives = some (c, .ran x) ∨ e.gives = some (c, .joined x) →
    ∃ d q, .ended d q x (.ran x) ∈ t ∧ .called d q true ∈ t ∧ (∀ q', .dropped d q' ∉ t) ∧
      ∀ q', .called d q' false ∉ t

/-! ### Events happen once -/

namespace Recorded

theorem nodup_arrivals (h : Recorded t w) : (t.filterMap LockEvent.arrives).Nodup :=
  h.arrivals ▸ List.nodup_range

/-- A call arrives only once. -/
theorem called_eq (h : Recorded t w) {c : Nat} {p q : Path} {b b' : Bool}
    (hp : .called c p b ∈ t) (hq : .called c q b' ∈ t) : p = q ∧ b = b' := by
  have := eq_of_nodup h.nodup_arrivals hp hq rfl rfl
  simpa using this

/-- Work of which nothing has been seen since it began is still under way. -/
theorem works_of_entered (h : Recorded t w) {d : Nat} {q : Path} {exclusive : Bool}
    (hentered : .entered d q exclusive ∈ t) (hopen : ∀ e ∈ t, e.closes ≠ some d) : w.Works d q := by
  obtain ⟨k, hk, rfl, rfl⟩ := h.entered d q exclusive hentered
  cases hph : k.phase with
  | none =>
    obtain ⟨e, he, hclose⟩ := h.ended d k hk hph
    exact absurd hclose (hopen e he)
  | some ph =>
    obtain ⟨place, rfl⟩ := (h.works d k ph ⟨hk, hph⟩).mpr hentered
    exact ⟨k, place, hk, rfl, hph⟩

end Recorded

/-! ### Outcomes -/

/-- Who is told that it did the work was at its work, for which it came. -/
theorem ran_of_run (h : Run Step empty (before ++ e :: after) w) {c : Nat} {x : α}
    (he : e.gives = some (c, .ran x)) :
    ∃ p, e = .ended c p x (.ran x) ∧ .called c p true ∈ before ∧ .entered c p true ∈ before := by
  obtain ⟨u, v, hu, hstep, -, -⟩ := h.split
  have hinv := invariant_of_run hu
  cases hstep.effect with
  | @complete d k place y hk hexclusive =>
    obtain ⟨rfl, rfl⟩ : d = c ∧ y = x := by simpa [LockEvent.gives] using he
    have hentered := (hinv.recorded.works _ _ _ hk).mp ⟨place, rfl⟩
    rw [hexclusive] at hentered
    exact ⟨k.path, rfl, hexclusive ▸ hinv.recorded.arrived _ k hk.1, hentered⟩
  | _ => simp [LockEvent.gives] at he

/-- Exclusive work that has come to an outcome was done by a call that came for it. -/
theorem of_ended_mem (h : Run Step empty t w) {c : Nat} {p : Path} {x : α} {r : Exclusive α}
    (he : .ended c p x r ∈ t) :
    r = .ran x ∧ .called c p true ∈ t ∧ .entered c p true ∈ t := by
  obtain ⟨before, after, rfl⟩ := List.append_of_mem he
  have hr : r = .ran x := by
    obtain ⟨u, v, -, hstep, -, -⟩ := h.split
    cases hstep.effect
    rfl
  subst hr
  obtain ⟨q, heq, hcalled, hentered⟩ := ran_of_run h rfl
  obtain rfl : p = q := by simpa using heq
  exact ⟨rfl, List.mem_append_left _ hcalled, List.mem_append_left _ hentered⟩

/-- Who shares an outcome shares the latest one that was reached on its path since it arrived. -/
theorem joined_of_run (h : Run Step empty (before ++ e :: after) w) {c : Nat} {x : α}
    (he : e.gives = some (c, .joined x)) :
    ∃ p first between d q later, e = .shared c p (.joined x) ∧
      before = first ++ .called c p true :: (between ++ .ended d q x (.ran x) :: later) ∧
      d ≠ c ∧ q.same p = true ∧ LockEvent.outcomesOn p later = [] := by
  obtain ⟨u, v, hu, hstep, -, -⟩ := h.split
  have hinv := invariant_of_run hu
  cases hstep.effect with
  | @share d k place s y hk hexclusive hs hlast hgen =>
    obtain ⟨rfl, rfl⟩ : d = c ∧ y = x := by simpa [LockEvent.gives] using he
    obtain ⟨first, since, rfl, hcount, hkept⟩ := hinv.counted _ k _ s hk hs
    -- The generation has grown since the call arrived, so that there is a last outcome.
    have hsome : LockEvent.outcomesOn k.path since ≠ [] := by
      intro hnone
      rw [hnone] at hcount
      exact hgen hcount
    obtain ⟨y', hy'⟩ := Option.ne_none_iff_exists'.mp (mt List.getLast?_eq_none_iff.mp hsome)
    obtain rfl : y' = y := Option.some.inj ((hkept y' hy').symm.trans hlast)
    obtain ⟨between, d', q, r, later, rfl, hq, hlater⟩ := LockEvent.exists_latest hy'
    obtain ⟨rfl, -, -⟩ := of_ended_mem (c := d') (p := q) (x := y') (r := r) hu (by simp)
    refine ⟨k.path, first, between, d', q, later, rfl, by rw [hexclusive], ?_, hq, hlater⟩
    rintro rfl
    exact hinv.recorded.not_closed hk (.ended d' q y' (.ran y')) (by simp) rfl
  | complete => simp [LockEvent.gives] at he
  | _ => simp [LockEvent.gives] at he

/-- A call that arrives while exclusive work is under way on its path, which then comes to an
outcome, never works. -/
theorem spared_of_run {c d : Nat} {p q : Path} {x : α} {r : Exclusive α}
    (h : Run Step empty (before ++ .called c p true :: after) w)
    (hentered : .entered d q true ∈ before) (hended : .ended d q x r ∈ after)
    (hpq : q.same p = true) (p' : Path) (b : Bool) :
    .entered c p' b ∉ before ++ .called c p true :: after := by
  intro hc
  have hrec := (invariant_of_run h).recorded
  obtain ⟨first, later, heq⟩ := List.append_of_mem hc
  have hrun := h
  rw [heq] at hrun
  obtain ⟨u, v, hu, hstep, hv, -⟩ := hrun.split
  have hinv := invariant_of_run hu
  have hinv' := invariant_of_run hv
  cases hstep.effect with
  | @enter _ k place s hk hs hfirst hnew =>
    obtain ⟨start, since, rfl, hcount, hkept⟩ := hinv.counted c k _ s hk hs
    -- What was seen of the call before its work began is what followed its arrival.
    have hcalled : .called c k.path k.exclusive ∈ before ++ .called c p true :: after := by
      rw [heq]
      simp
    obtain ⟨hpath, hexclusive⟩ := hrec.called_eq (p := p) (b := true) (by simp) hcalled
    rw [← hpath] at hcount hkept
    rw [← hpath, ← hexclusive, List.append_assoc, List.cons_append] at heq
    obtain ⟨rfl, rfl⟩ := append_cons_inj_of_nodup hrec.nodup_arrivals rfl heq
    have hout : LockEvent.outcomeOn p (.ended d q x r) = some x := by
      simp [LockEvent.outcomeOn, hpq]
    rcases List.mem_append.mp hended with hended | hended
    · -- The other work came to an outcome before, so that the call shares it.
      have hmem : x ∈ LockEvent.outcomesOn p since := List.mem_filterMap.mpr ⟨_, hended, hout⟩
      rcases hnew hexclusive.symm with hnone | hseen
      · have hlast := hkept _ (List.getLast?_eq_some_getLast (List.ne_nil_of_mem hmem))
        exact absurd (hnone.symm.trans hlast) (by simp)
      · have := List.length_pos_of_mem hmem
        rw [hseen, LockCall.place] at hcount
        omega
    · -- The other work is still under way, so that two calls work on the path.
      have hended : .ended d q x r ∈ later := (List.mem_cons.mp hended).resolve_left (by simp)
      have honce := (invariant_of_run hrun).recorded.once
      rw [List.append_cons] at honce
      have hentered' : .entered d q true ∈ before ++ .called c k.path k.exclusive :: since ++
          [.entered c k.path k.exclusive] := by simp [hentered]
      have hd := hinv'.recorded.works_of_entered hentered'
        fun e he hclose ↦ not_twice honce he hended hclose rfl
      obtain ⟨k', hk', hpath', -, -, hphase⟩ := calls_advance_of_eq_some hk.1
      have hcw : (u.advance c (some (.working place)) u.locks).Works c p :=
        ⟨k', place, hk', hpath'.trans hpath.symm, hphase rfl⟩
      obtain rfl := hinv'.queued.works_unique hinv'.tabled hd hcw hpq
      -- But the other call had arrived before.
      obtain ⟨u₀, -, hu₀, -⟩ := h.split
      have hrec₀ := (invariant_of_run hu₀).recorded
      obtain ⟨k₀, hk₀, -⟩ := hrec₀.entered d q true hentered
      exact not_twice hrec.nodup_arrivals (hrec₀.arrived d k₀ hk₀) List.mem_cons_self rfl rfl

/-- An outcome that somebody is told is that of exclusive work that was not given up. -/
theorem complete_of_run (h : Run Step empty t w) (he : e ∈ t) {x : α}
    (hgives : e.gives = some (c, .ran x) ∨ e.gives = some (c, .joined x)) :
    ∃ d q, .ended d q x (.ran x) ∈ t ∧ .called d q true ∈ t ∧ (∀ q', .dropped d q' ∉ t) ∧
      ∀ q', .called d q' false ∉ t := by
  have hrec := (invariant_of_run h).recorded
  -- The work that came to the outcome, be it that of the call or that of another one.
  have hended : ∃ d q, .ended d q x (.ran x) ∈ t := by
    obtain ⟨before, after, rfl⟩ := List.append_of_mem he
    rcases hgives with hran | hjoined
    · obtain ⟨p, rfl, -⟩ := ran_of_run h hran
      exact ⟨c, p, he⟩
    · obtain ⟨p, first, between, d, q, later, -, rfl, -⟩ := joined_of_run h hjoined
      exact ⟨d, q, by simp⟩
  obtain ⟨d, q, hd⟩ := hended
  obtain ⟨-, hcalled, -⟩ := of_ended_mem h hd
  refine ⟨d, q, hd, hcalled, ?_, ?_⟩
  · intro q' hdropped
    have := eq_of_nodup hrec.once hd hdropped rfl rfl
    simp at this
  · intro q' hapart
    have := hrec.called_eq hcalled hapart
    simp at this

/-- In every run of callers that take slots, make calls in them, drop calls and let go of slots, in
any order, callers may rely on what they are told. -/
theorem reliable_of_run (h : Run Step empty t w) : Reliable t w := by
  have hinv := invariant_of_run h
  refine ⟨?_, ?_, ?_, ?_, ?_⟩
  · intro c d p q hc hd hpq
    exact hinv.queued.works_unique hinv.tabled hc hd hpq
  · rintro before e after c x rfl he
    exact ran_of_run h he
  · rintro before e after c x rfl he
    exact joined_of_run h he
  · rintro before after c d p q x r rfl hentered hended hpq p' b
    exact spared_of_run h hentered hended hpq p' b
  · intro e he c x hgives
    exact complete_of_run h he hgives

/-- A call that waits for another one shares its outcome. -/
theorem reliable_waiting : ∃ w : LockWorld Nat,
    Run Step empty
      [.took 0 ⟨"/a"⟩, .called 0 ⟨"/a"⟩ true, .entered 0 ⟨"/a"⟩ true, .called 1 ⟨"/a"⟩ true,
        .ended 0 ⟨"/a"⟩ 7 (.ran 7), .shared 1 ⟨"/a"⟩ (.joined 7)] w ∧
    Reliable
      [.took 0 ⟨"/a"⟩, .called 0 ⟨"/a"⟩ true, .entered 0 ⟨"/a"⟩ true, .called 1 ⟨"/a"⟩ true,
        .ended 0 ⟨"/a"⟩ 7 (.ran 7), .shared 1 ⟨"/a"⟩ (.joined 7)] w := by
  have took := Run.nil.snoc (Step.take (w := (empty : LockWorld Nat)) ⟨"/a"⟩)
  have called := took.snoc (Step.call (h := 0) true rfl)
  have entered := called.snoc (Step.enter (c := 0) rfl rfl rfl rfl)
  have waiting := entered.snoc (Step.call (h := 0) true rfl)
  have ended := waiting.snoc (Step.complete (c := 0) 7 rfl rfl rfl rfl)
  have shared := ended.snoc (Step.share (c := 1) rfl rfl rfl rfl)
  exact ⟨_, shared, reliable_of_run shared⟩

end LockWorld

end CodeNav
