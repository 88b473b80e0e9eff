import CodeNav.Turn

/-!
# What turns lead to

The turn of an activity inside another one is told apart by the turn of the inner one: it is parked
with it, and goes on or ends in the ways in which the inner one does.

## Main definitions

* `Turn.Leads`: a turn leads only to states with some property

## Main statements

* `Turn.lift_eq_moved`, `Turn.lift_eq_finished`: what a turn does that is seen from a larger state
* `Turn.map_eq_moved`, `Turn.map_eq_finished`: what a turn does that is part of another activity
-/

namespace CodeNav

namespace Turn

variable {σ τ φ ψ α β : Type} {P Q : σ → Prop}

/-! ### Activities inside others -/

theorem lift_eq_moved {turn : Turn σ φ α} {put : σ → τ} {p : φ} {t : τ} :
    turn.lift put = .moved p t ↔ ∃ s, turn = .moved p s ∧ put s = t := by
  cases turn <;> simp [lift, and_assoc]

theorem lift_eq_finished {turn : Turn σ φ α} {put : σ → τ} {r : α} {t : τ} :
    turn.lift put = .finished r t ↔ ∃ s, turn = .finished r s ∧ put s = t := by
  cases turn <;> simp [lift, and_assoc]

/-- An activity that ends may move the one that it is part of. -/
theorem map_eq_moved {turn : Turn σ φ α} {phase : φ → ψ} {finish : α → σ → Turn σ ψ β} {q : ψ}
    {s : σ} : turn.map phase finish = .moved q s ↔
      (∃ p, turn = .moved p s ∧ phase p = q) ∨
        ∃ r s', turn = .finished r s' ∧ finish r s' = .moved q s := by
  cases turn <;> simp [map, and_assoc, and_comm]

theorem map_eq_finished {turn : Turn σ φ α} {phase : φ → ψ} {finish : α → σ → Turn σ ψ β} {b : β}
    {s : σ} : turn.map phase finish = .finished b s ↔
      ∃ r s', turn = .finished r s' ∧ finish r s' = .finished b s := by
  cases turn <;> simp [map, and_assoc]

/-- The turn of an inner activity that leads on leads the outer one on. -/
theorem map_ne_parked {turn : Turn σ φ α} (h : ∀ until?, turn ≠ .parked until?)
    (phase : φ → ψ) (g : α → β) (until? : Option Nat) :
    turn.map phase (fun r s ↦ .finished (g r) s) ≠ .parked until? := by
  cases turn with
  | parked u => exact absurd rfl (h u)
  | moved => simp [map]
  | finished => simp [map]

/-! ### States that turns lead to -/

/-- A turn leads only to states with some property. -/
def Leads (P : σ → Prop) : Turn σ φ α → Prop
  | parked _ => True
  | moved _ s => P s
  | finished _ s => P s

theorem leads_iff {turn : Turn σ φ α} : turn.Leads P ↔
    (∀ p s, turn = .moved p s → P s) ∧ ∀ r s, turn = .finished r s → P s := by
  cases turn <;> simp [Leads]

theorem Leads.moved {turn : Turn σ φ α} (h : turn.Leads P) {p : φ} {s : σ} (hturn : turn = .moved p s) :
    P s :=
  (leads_iff.mp h).1 p s hturn

theorem Leads.finished {turn : Turn σ φ α} (h : turn.Leads P) {r : α} {s : σ}
    (hturn : turn = .finished r s) : P s :=
  (leads_iff.mp h).2 r s hturn

theorem Leads.imp {turn : Turn σ φ α} (h : turn.Leads P) (hPQ : ∀ s, P s → Q s) :
    turn.Leads Q := by
  cases turn with
  | parked => trivial
  | moved _ s => exact hPQ s h
  | finished _ s => exact hPQ s h

/-- Where a turn of an inner activity leads, so does that of the outer one. -/
theorem leads_map {P : σ → Prop} {turn : Turn σ φ α} (phase : φ → ψ)
    (finish : α → σ → Turn σ ψ β) (h : turn.Leads P)
    (hfinish : ∀ r s, P s → (finish r s).Leads P) : (turn.map phase finish).Leads P := by
  cases turn with
  | parked => trivial
  | moved _ s => exact h
  | finished r s => exact hfinish r s h

theorem leads_lift {P : τ → Prop} {put : σ → τ} {turn : Turn σ φ α}
    (h : turn.Leads fun s ↦ P (put s)) : (turn.lift put).Leads P := by
  cases turn <;> exact h

end Turn

end CodeNav
