import Mathlib.Data.List.Induction
import Mathlib.Data.List.Nodup

/-!
# Runs of interleaved activities

The activities of a program take turns in any order. A system of activities is a relation that says
which states a state may lead to and which event is seen when it does; a run is what happens from a
state on, with the events in the order in which they were seen.

## Main definitions

* `Run`: the runs of a system
* `Through`: a step that a run goes through
* `play`: what happens when turns are taken in a given order

## Main statements

* `Run.invariant`: what holds of a state and the events before it, when every step keeps it
* `Run.split`: a run up to an event and from there on
* `run_of_play`: turns in a given order make a run
* `eq_of_nodup`, `append_cons_inj_of_nodup`: events that happen only once
* `getElem?_concat_eq_some`, `getElem?_set_eq_some`, `perm_flatMap_set`, `perm_filterMap_set`:
  activities that are numbered in the order in which they begin
-/

namespace CodeNav

variable {σ ε : Type} {step : σ → ε → σ → Prop}

/-- The runs from a state: the events that were seen, and the state that was reached. -/
inductive Run (step : σ → ε → σ → Prop) (s : σ) : List ε → σ → Prop
  | nil : Run step s [] s
  | snoc {t : List ε} {e : ε} {u v : σ} (h : Run step s t u) (hstep : step u e v) :
      Run step s (t ++ [e]) v

/-- A run goes through a step: what was seen before it, and what was seen after it. -/
def Through (step : σ → ε → σ → Prop) (s : σ) (t : List ε) (w u : σ) (e : ε) (v : σ) : Prop :=
  ∃ before after, t = before ++ e :: after ∧ Run step s before u ∧ step u e v ∧ Run step v after w

namespace Run

/-- What holds in the beginning and is kept by every step of a run holds all along. -/
theorem invariant {P : List ε → σ → Prop} {s : σ} (h0 : P [] s)
    (hstep : ∀ t u e v, Run step s t u → P t u → step u e v → P (t ++ [e]) v)
    {t : List ε} {u : σ} (h : Run step s t u) : P t u := by
  induction h with
  | nil => exact h0
  | snoc h he ih => exact hstep _ _ _ _ h ih he

/-- A run of a system is one of every system that can do at least as much. -/
theorem mono {step' : σ → ε → σ → Prop} {s u : σ} {t : List ε} (h : Run step s t u)
    (hstep : ∀ u e v, step u e v → step' u e v) : Run step' s t u := by
  induction h with
  | nil => exact .nil
  | snoc _ he ih => exact ih.snoc (hstep _ _ _ he)

/-- The last step of a run. -/
theorem last {s v : σ} {t : List ε} {e : ε} (h : Run step s (t ++ [e]) v) :
    ∃ u, Run step s t u ∧ step u e v := by
  generalize hte : t ++ [e] = l at h
  cases h with
  | nil => simp at hte
  | snoc h he =>
    obtain ⟨rfl, rfl⟩ := List.append_singleton_inj.mp hte
    exact ⟨_, h, he⟩

/-- The first part of a run, and what follows it. -/
theorem parts {s v : σ} {t : List ε} (more : List ε) (h : Run step s (t ++ more) v) :
    ∃ u, Run step s t u ∧ Run step u more v := by
  induction more using List.reverseRecOn generalizing v with
  | nil => exact ⟨v, by simpa using h, .nil⟩
  | append_singleton more e ih =>
    rw [← List.append_assoc] at h
    obtain ⟨w, hw, he⟩ := h.last
    obtain ⟨u, hu, hmore⟩ := ih hw
    exact ⟨u, hu, hmore.snoc he⟩

/-- A run up to an event, the step of the event, and what follows it. -/
theorem split {s w : σ} {before after : List ε} {e : ε}
    (h : Run step s (before ++ e :: after) w) :
    ∃ u v, Run step s before u ∧ step u e v ∧ Run step s (before ++ [e]) v ∧
      Run step v after w := by
  rw [List.append_cons] at h
  obtain ⟨v, hv, hafter⟩ := parts after h
  obtain ⟨u, hu, he⟩ := hv.last
  exact ⟨u, v, hu, he, hv, hafter⟩

/-- The first step of a run, and what follows it. -/
theorem first {s w : σ} {after : List ε} {e : ε} (h : Run step s (e :: after) w) :
    ∃ v, step s e v ∧ Run step v after w := by
  have h : Run step s ([] ++ e :: after) w := h
  obtain ⟨u, v, hnil, he, -, hafter⟩ := h.split
  generalize hl : ([] : List ε) = l at hnil
  cases hnil with
  | nil => exact ⟨v, he, hafter⟩
  | snoc => simp at hl

/-- A run that goes on. -/
theorem append {s u v : σ} {t more : List ε} (h : Run step s t u) (hmore : Run step u more v) :
    Run step s (t ++ more) v := by
  induction hmore with
  | nil => simpa using h
  | snoc hmore he ih =>
    rw [← List.append_assoc]
    exact ih.snoc he

/-- A run that goes on after its last step has gone through this step. -/
theorem through_last {s u v : σ} {t : List ε} {e : ε} (h : Run step s t u) (hstep : step u e v) :
    Through step s (t ++ [e]) v u e v :=
  ⟨t, [], rfl, h, hstep, .nil⟩

end Run

/-- A run goes on after it has gone through a step. -/
theorem Through.snoc {s w w' u v : σ} {t : List ε} {e e' : ε} (h : Through step s t w u e v)
    (hstep : step w e' w') : Through step s (t ++ [e']) w' u e v := by
  obtain ⟨before, after, rfl, hbefore, hat, hafter⟩ := h
  exact ⟨before, after ++ [e'], by simp, hbefore, hat, hafter.snoc hstep⟩

/-- A step that a run goes through is one of a run. -/
theorem Through.run {s w u v : σ} {t : List ε} {e : ε} (h : Through step s t w u e v) :
    Run step s t w := by
  obtain ⟨before, after, rfl, hbefore, hat, hafter⟩ := h
  exact hbefore.append ((Run.nil.snoc hat).append hafter)

/-! ### Schedules -/

/-- What is seen when turns are taken one after the other, if each of them can be taken. -/
def play {μ : Type} (move : σ → μ → Option (ε × σ)) (s : σ) : List μ → Option (List ε × σ)
  | [] => some ([], s)
  | m :: rest =>
    match move s m with
    | none => none
    | some (e, u) => (play move u rest).map (Prod.map (e :: ·) id)

/-- A schedule that can be followed gives a run. -/
theorem run_of_play {μ : Type} {move : σ → μ → Option (ε × σ)}
    (hmove : ∀ s m e u, move s m = some (e, u) → step s e u) {s u : σ} {moves : List μ}
    {t : List ε} (h : play move s moves = some (t, u)) : Run step s t u := by
  induction moves generalizing s t with
  | nil =>
    obtain ⟨rfl, rfl⟩ := Prod.mk.inj (Option.some.inj h)
    exact .nil
  | cons m rest ih =>
    simp only [play] at h
    split at h
    · simp at h
    · rename_i e v hm
      obtain ⟨⟨later, w⟩, hplay, heq⟩ := Option.map_eq_some_iff.mp h
      obtain ⟨rfl, rfl⟩ := Prod.mk.inj heq
      exact (Run.nil.snoc (hmove _ _ _ _ hm)).append (ih hplay)

/-- A schedule that can be followed gives a run, of which is true what was computed. -/
theorem exists_run_of_play {μ : Type} (move : σ → μ → Option (ε × σ))
    (hmove : ∀ s m e u, move s m = some (e, u) → step s e u) (s : σ) (moves : List μ)
    (check : List ε → σ → Bool) (h : ((play move s moves).any fun x ↦ check x.1 x.2) = true) :
    ∃ t u, Run step s t u ∧ check t u = true := by
  obtain ⟨⟨t, u⟩, hplay, hcheck⟩ := (Option.any_eq_true ..).mp h
  exact ⟨t, u, run_of_play hmove hplay, hcheck⟩

/-- A schedule that can be followed gives a run through the step of any of its turns. -/
theorem exists_through_of_play {μ : Type} (move : σ → μ → Option (ε × σ))
    (hmove : ∀ s m e u, move s m = some (e, u) → step s e u) (s : σ) (before : List μ) (m : μ)
    (after : List μ) (check : List ε → σ → σ → σ → Bool)
    (h : ((play move s before).any fun x ↦ (move x.2 m).any fun y ↦ (play move y.2 after).any fun z ↦
      check (x.1 ++ y.1 :: z.1) x.2 y.2 z.2) = true) :
    ∃ t u e v w, Through step s t w u e v ∧ check t u v w = true := by
  obtain ⟨⟨t, u⟩, hbefore, h⟩ := (Option.any_eq_true ..).mp h
  obtain ⟨⟨e, v⟩, hat, h⟩ := (Option.any_eq_true ..).mp h
  obtain ⟨⟨t', w⟩, hafter, hcheck⟩ := (Option.any_eq_true ..).mp h
  exact ⟨t ++ e :: t', u, e, v, w,
    ⟨t, t', rfl, run_of_play hmove hbefore, hmove _ _ _ _ hat, run_of_play hmove hafter⟩, hcheck⟩

/-! ### Events that happen once -/

/-- When something is only marked once in a history, no event that marks it comes after another one
that does. -/
theorem not_twice {f : ε → Option Nat} {before after : List ε} {d e : ε} {n : Nat}
    (h : ((before ++ after).filterMap f).Nodup) (hd : d ∈ before) (he : e ∈ after)
    (hdn : f d = some n) (hen : f e = some n) : False := by
  rw [List.filterMap_append] at h
  exact List.disjoint_of_nodup_append h (List.mem_filterMap.mpr ⟨d, hd, hdn⟩)
    (List.mem_filterMap.mpr ⟨e, he, hen⟩)

/-- Two events that mark the same are one. -/
theorem eq_of_nodup {f : ε → Option Nat} {t : List ε} {d e : ε} {n : Nat}
    (h : (t.filterMap f).Nodup) (hd : d ∈ t) (he : e ∈ t) (hdn : f d = some n)
    (hen : f e = some n) : d = e := by
  obtain ⟨t₁, t₂, rfl⟩ := List.append_of_mem hd
  rcases List.mem_append.mp he with he | he
  · exact (not_twice h he List.mem_cons_self hen hdn).elim
  · rcases List.mem_cons.mp he with rfl | he
    · rfl
    · rw [List.append_cons] at h
      exact (not_twice h (List.mem_append_right _ List.mem_cons_self) he hdn hen).elim

/-- What comes before and after an event that happens once. -/
theorem append_cons_inj_of_nodup {f : ε → Option Nat} {before after first later : List ε} {e : ε}
    {n : Nat} (h : ((before ++ e :: after).filterMap f).Nodup) (hen : f e = some n)
    (heq : before ++ e :: after = first ++ e :: later) : before = first ∧ after = later := by
  have hbefore : e ∉ before := fun hmem ↦ not_twice h hmem List.mem_cons_self hen hen
  have hafter : e ∉ after := fun hmem ↦ by
    rw [List.append_cons] at h
    exact not_twice h (List.mem_append_right _ List.mem_cons_self) hmem hen hen
  obtain ⟨hfirst, -, hlater⟩ := (List.append_cons_inj_of_notMem hbefore hafter).mp heq
  exact ⟨hfirst, hlater⟩

/-- An activity is one that was there before, or the one that was begun last. -/
theorem getElem?_concat_eq_some {α : Type} {l : List α} {a x : α} {n : Nat} :
    (l ++ [a])[n]? = some x ↔ l[n]? = some x ∨ (n = l.length ∧ x = a) := by
  rcases Nat.lt_or_ge n l.length with hlt | hge
  · rw [List.getElem?_append_left hlt]
    refine ⟨Or.inl, fun h ↦ h.resolve_right ?_⟩
    rintro ⟨rfl, -⟩
    exact absurd hlt (Nat.lt_irrefl _)
  · rw [List.getElem?_append_right hge, List.getElem?_singleton, List.getElem?_eq_none hge]
    constructor
    · intro h
      split at h
      · exact Or.inr ⟨by omega, (Option.some.inj h).symm⟩
      · simp at h
    · rintro (h | ⟨rfl, rfl⟩)
      · simp at h
      · simp

/-- An activity is the one that has gone on, or is as before. -/
theorem getElem?_set_eq_some {α : Type} {l : List α} {a b x : α} {n m : Nat}
    (hn : l[n]? = some b) :
    (l.set n a)[m]? = some x ↔ (m = n ∧ x = a) ∨ (m ≠ n ∧ l[m]? = some x) := by
  by_cases hmn : m = n
  · subst hmn
    rw [List.getElem?_set_self (List.getElem?_eq_some_iff.mp hn).1]
    simp [eq_comm]
  · rw [List.getElem?_set_ne fun h ↦ hmn h.symm]
    simp [hmn]

/-- All that is known of activities, when one of them goes on. -/
theorem perm_flatMap_set {α β : Type} (f : α → List β) {l : List α} {a : α} {n : Nat}
    (hn : l[n]? = some a) : ∃ rest, (l.flatMap f).Perm (f a ++ rest) ∧
      ∀ b, ((l.set n b).flatMap f).Perm (f b ++ rest) := by
  obtain ⟨hlt, rfl⟩ := List.getElem?_eq_some_iff.mp hn
  have hperm : ∀ b, ((l.set n b).flatMap f).Perm
      (f b ++ ((l.take n).flatMap f ++ (l.drop (n + 1)).flatMap f)) := by
    intro b
    rw [List.set_eq_take_append_cons_drop, if_pos hlt, List.flatMap_append, List.flatMap_cons]
    exact List.perm_append_comm_assoc ..
  have hself := hperm l[n]
  rw [List.set_getElem_self] at hself
  exact ⟨_, hself, hperm⟩

/-- What is known of each activity, when one of them goes on. -/
theorem perm_filterMap_set {α β : Type} (f : α → Option β) {l : List α} {a : α} {n : Nat}
    (hn : l[n]? = some a) : ∃ rest, (l.filterMap f).Perm ((f a).toList ++ rest) ∧
      ∀ b, ((l.set n b).filterMap f).Perm ((f b).toList ++ rest) := by
  simp only [List.filterMap_eq_flatMap_toList]
  exact perm_flatMap_set (fun x ↦ (f x).toList) hn

end CodeNav
