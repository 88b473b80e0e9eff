import CodeNav.Proofs.Lock.Callers
import Mathlib.Data.List.Nodup

/-!
# The table of slots

At any time the slots that callers hold on to are those that the table finds: each path has at most
one of them, and no two paths share one. A slot counts those who hold on to it, so that the table
never finds a slot that somebody else has given up, and never makes a second one beside a slot that
is still held.

## Main definitions

* `LockWorld.Tabled`: the invariant of the table

## Main statements

* `LockWorld.Tabled.step`: every step keeps the invariant
* `LockWorld.Tabled.slot_eq`, `LockWorld.Tabled.path_same`: callers are in one slot exactly when they
  took it for the same path
-/

namespace CodeNav

namespace Path

theorem same_iff {p q : Path} : p.same q = true ↔ p.components = q.components := by
  simp [same]

theorem same_refl (p : Path) : p.same p = true := same_iff.mpr rfl

theorem same_symm {p q : Path} (h : p.same q = true) : q.same p = true :=
  same_iff.mpr (same_iff.mp h).symm

theorem same_trans {p q r : Path} (h : p.same q = true) (h' : q.same r = true) :
    p.same r = true :=
  same_iff.mpr ((same_iff.mp h).trans (same_iff.mp h'))

end Path

namespace PathLocks

variable {α : Type} {l : PathLocks α}

@[simp]
theorem length_change (l : PathLocks α) (n : Nat) (f : Slot α → Slot α) :
    (l.change n f).slots.length = l.slots.length :=
  List.length_modify ..

theorem slot?_change (l : PathLocks α) (n m : Nat) (f : Slot α → Slot α) :
    (l.change n f).slot? m = if n = m then (l.slot? m).map f else l.slot? m := by
  simp only [slot?, change, List.getElem?_modify]
  by_cases h : n = m
  · simp [h]
  · simp [h]

theorem slot?_change_self {n : Nat} {s : Slot α} (f : Slot α → Slot α) (h : l.slot? n = some s) :
    (l.change n f).slot? n = some (f s) := by
  rw [slot?_change, if_pos rfl, h, Option.map_some]

theorem slot?_change_of_ne {n m : Nat} (f : Slot α → Slot α) (h : n ≠ m) :
    (l.change n f).slot? m = l.slot? m := by
  rw [slot?_change, if_neg h]

/-- A slot after a change is the one that was changed, or was there before. -/
theorem slot?_change_eq_some {n m : Nat} {f : Slot α → Slot α} {s : Slot α} :
    (l.change n f).slot? m = some s ↔
      (m = n ∧ ∃ s₀, l.slot? m = some s₀ ∧ f s₀ = s) ∨ (m ≠ n ∧ l.slot? m = some s) := by
  by_cases h : m = n
  · subst h
    simp [slot?_change]
  · simp [slot?_change_of_ne f (Ne.symm h), h]

theorem slot?_isSome {n : Nat} (h : n < l.slots.length) : ∃ s, l.slot? n = some s :=
  ⟨l.slots[n], List.getElem?_eq_getElem h⟩

theorem isLive_iff {n : Nat} : l.isLive n = true ↔ ∃ s, l.slot? n = some s ∧ s.holders ≠ 0 := by
  simp [isLive, Slot.isLive, Option.any_eq_true]

/-- What the table finds for a path: the live slot of its entry. -/
theorem find?_eq_some_iff (hpaths : (l.table.map fun e ↦ e.1.components).Nodup) {p : Path} {n : Nat} :
    l.find? p = some n ↔ ∃ e ∈ l.table, e.1.same p = true ∧ e.2 = n ∧ l.isLive n = true := by
  rw [find?, Option.filter_eq_some_iff, Option.map_eq_some_iff]
  constructor
  · rintro ⟨⟨e, he, rfl⟩, hlive⟩
    have hsame := List.find?_some he
    exact ⟨e, List.mem_of_find?_eq_some he, hsame, rfl, hlive⟩
  · rintro ⟨e, he, hsame, rfl, hlive⟩
    refine ⟨⟨e, ?_, rfl⟩, hlive⟩
    -- An entry that is found first is this one, as there is only one for a path.
    cases hfind : l.table.find? fun e ↦ e.1.same p with
    | none => exact absurd hsame (List.find?_eq_none.mp hfind e he)
    | some d =>
      have hd := List.find?_some hfind
      have := List.inj_on_of_nodup_map hpaths (List.mem_of_find?_eq_some hfind) he
        (Path.same_iff.mp (Path.same_trans hd (Path.same_symm hsame)))
      rw [this]

/-- Taking a slot: the one that is found, or a new one. -/
theorem hold_eq_of_find? {p : Path} {n : Nat} (h : l.find? p = some n) :
    l.hold p = (n, l.change n fun s ↦ { s with holders := s.holders + 1 }) := by
  rw [hold, h]

theorem hold_eq_make {p : Path} (h : l.find? p = Option.none) :
    l.hold p = (l.slots.length, l.make p) := by
  rw [hold, h]

theorem slot?_make (l : PathLocks α) (p : Path) (n : Nat) :
    (l.make p).slot? n =
      if n = l.slots.length then some .fresh else l.slot? n := by
  simp only [slot?, make]
  rcases Nat.lt_trichotomy n l.slots.length with h | h | h
  · rw [List.getElem?_append_left h, if_neg (Nat.ne_of_lt h)]
  · rw [h, List.getElem?_concat_length, if_pos rfl]
  · rw [if_neg (Nat.ne_of_gt h), List.getElem?_eq_none (by simp; omega),
      List.getElem?_eq_none (Nat.le_of_lt h)]

/-- A slot is made for a path that the table does not have. -/
theorem nodup_paths_make {p : Path} (hpaths : (l.table.map fun e ↦ e.1.components).Nodup)
    (hfind : l.find? p = Option.none) :
    ((l.make p).table.map fun e ↦ e.1.components).Nodup := by
  simp only [make, List.map_append, List.map_cons, List.map_nil]
  refine List.Nodup.append (hpaths.sublist (List.filter_sublist.map _)) (List.nodup_singleton _) ?_
  simp only [List.disjoint_singleton, List.mem_map, List.mem_filter, not_exists, not_and, and_imp]
  intro e he hlive hep
  rw [(find?_eq_some_iff hpaths).mpr ⟨e, he, Path.same_iff.mpr hep, rfl, hlive⟩] at hfind
  exact absurd hfind (by simp)

/-- A slot that is made is a new one. -/
theorem nodup_slots_make (hslots : (l.table.map fun e ↦ e.2).Nodup)
    (hmade : ∀ e ∈ l.table, e.2 < l.slots.length) (p : Path) :
    ((l.make p).table.map fun e ↦ e.2).Nodup := by
  simp only [make, List.map_append, List.map_cons, List.map_nil]
  refine List.Nodup.append (hslots.sublist (List.filter_sublist.map _)) (List.nodup_singleton _) ?_
  simp only [List.disjoint_singleton, List.mem_map, List.mem_filter, not_exists, not_and, and_imp]
  intro e he _
  exact Nat.ne_of_lt (hmade e he)

end PathLocks

namespace LockWorld

variable {α : Type} {w w' : LockWorld α}

/-- Whether somebody holds on to the slot with a number. -/
def holdsSlot (n : Nat) (a : Option LockHandle) : Bool := a.any fun a ↦ a.slot = n

@[simp]
theorem holdsSlot_none (n : Nat) : holdsSlot n none = false := rfl

@[simp]
theorem holdsSlot_some (n : Nat) (a : LockHandle) : holdsSlot n (some a) = decide (a.slot = n) := rfl

/-- The table finds the slots that callers hold on to, which count their holders. -/
structure Tabled (w : LockWorld α) : Prop where
  paths : (w.locks.table.map fun e ↦ e.1.components).Nodup
  slots : (w.locks.table.map fun e ↦ e.2).Nodup
  made : ∀ e ∈ w.locks.table, e.2 < w.locks.slots.length
  found : ∀ a, some a ∈ w.handles → ∃ e ∈ w.locks.table, e.1.same a.path = true ∧ e.2 = a.slot
  counted : ∀ n s, w.locks.slot? n = some s → s.holders = w.handles.countP (holdsSlot n)

namespace Tabled

/-- Callers who took a slot for the same path are in the same slot. -/
theorem slot_eq (h : w.Tabled) {a b : LockHandle} (ha : some a ∈ w.handles)
    (hb : some b ∈ w.handles) (hab : a.path.same b.path = true) : a.slot = b.slot := by
  obtain ⟨e, he, hea, hes⟩ := h.found a ha
  obtain ⟨d, hd, hdb, hds⟩ := h.found b hb
  have hed : e.1.same d.1 = true :=
    Path.same_trans (Path.same_trans hea hab) (Path.same_symm hdb)
  rw [← hes, ← hds, List.inj_on_of_nodup_map h.paths he hd (Path.same_iff.mp hed)]

/-- Callers who are in one slot took it for the same path. -/
theorem path_same (h : w.Tabled) {a b : LockHandle} (ha : some a ∈ w.handles)
    (hb : some b ∈ w.handles) (hab : a.slot = b.slot) : a.path.same b.path = true := by
  obtain ⟨e, he, hea, hes⟩ := h.found a ha
  obtain ⟨d, hd, hdb, hds⟩ := h.found b hb
  have hed : e = d :=
    List.inj_on_of_nodup_map h.slots he hd (hes.trans (hab.trans hds.symm))
  subst hed
  exact Path.same_trans (Path.same_symm hea) hdb

/-- The slot of a caller exists, and counts at least this caller. -/
theorem slot?_eq_some (h : w.Tabled) {a : LockHandle} (ha : some a ∈ w.handles) :
    ∃ s, w.locks.slot? a.slot = some s ∧ 0 < s.holders := by
  obtain ⟨e, he, -, hes⟩ := h.found a ha
  obtain ⟨s, hs⟩ := PathLocks.slot?_isSome (h.made e he)
  rw [hes] at hs
  refine ⟨s, hs, ?_⟩
  rw [h.counted _ _ hs, List.countP_pos_iff]
  exact ⟨some a, ha, by simp⟩

/-- The slot of a caller was made. -/
theorem slot_lt (h : w.Tabled) {a : LockHandle} (ha : some a ∈ w.handles) :
    a.slot < w.locks.slots.length := by
  obtain ⟨e, he, -, hes⟩ := h.found a ha
  exact hes ▸ h.made e he

/-- What is done in a slot by those who hold on to it does not concern the table. -/
theorem change (h : w.Tabled) (n : Nat) {f : Slot α → Slot α}
    (hf : ∀ s, (f s).holders = s.holders) (calls : List LockEntry) :
    Tabled { w with locks := w.locks.change n f, calls := calls } where
  paths := h.paths
  slots := h.slots
  made e he := by simpa using h.made e he
  found := h.found
  counted m s hs := by
    rcases PathLocks.slot?_change_eq_some.mp hs with ⟨-, s₀, hs₀, rfl⟩ | ⟨-, hs⟩
    · rw [hf]
      exact h.counted m s₀ hs₀
    · exact h.counted m s hs

/-- A caller takes a slot that the table finds. -/
theorem takeFound (h : w.Tabled) {p : Path} {n : Nat} (hfind : w.locks.find? p = some n) :
    Tabled { w with
      locks := w.locks.change n fun s ↦ { s with holders := s.holders + 1 }
      handles := w.handles ++ [some ⟨p, n⟩] } := by
  obtain ⟨e, he, hep, hen, -⟩ := (PathLocks.find?_eq_some_iff h.paths).mp hfind
  refine ⟨h.paths, h.slots, fun e he ↦ by simpa using h.made e he, ?_, ?_⟩
  · intro a ha
    rcases List.mem_append.mp ha with ha | ha
    · exact h.found a ha
    · obtain rfl : a = ⟨p, n⟩ := by simpa using ha
      exact ⟨e, he, hep, hen⟩
  · intro m s hs
    rw [List.countP_append]
    rcases PathLocks.slot?_change_eq_some.mp hs with ⟨rfl, s₀, hs₀, rfl⟩ | ⟨hm, hs⟩
    · simp [h.counted _ _ hs₀]
    · simp [h.counted _ _ hs, hm.symm]

/-- A caller takes a slot that is made for it. -/
theorem takeMade (h : w.Tabled) {p : Path} (hfind : w.locks.find? p = none) :
    Tabled { w with
      locks := w.locks.make p
      handles := w.handles ++ [some ⟨p, w.locks.slots.length⟩] } := by
  refine ⟨PathLocks.nodup_paths_make h.paths hfind, PathLocks.nodup_slots_make h.slots h.made p,
    ?_, ?_, ?_⟩
  · intro e he
    simp only [PathLocks.make, List.length_append, List.length_singleton] at he ⊢
    rcases List.mem_append.mp he with he | he
    · exact Nat.lt_succ_of_lt (h.made e (List.mem_of_mem_filter he))
    · rw [List.mem_singleton.mp he]
      exact Nat.lt_succ_self _
  · intro a ha
    rcases List.mem_append.mp ha with ha | ha
    · -- Who holds on to a slot keeps its entry in the table.
      obtain ⟨e, he, hea, hes⟩ := h.found a ha
      obtain ⟨s, hs, hpos⟩ := h.slot?_eq_some ha
      refine ⟨e, List.mem_append_left _ (List.mem_filter.mpr ⟨he, ?_⟩), hea, hes⟩
      rw [hes]
      exact PathLocks.isLive_iff.mpr ⟨s, hs, Nat.ne_of_gt hpos⟩
    · obtain rfl : a = ⟨p, w.locks.slots.length⟩ := by simpa using ha
      exact ⟨(p, w.locks.slots.length), by simp [PathLocks.make], Path.same_refl p, rfl⟩
  · intro m s hs
    rw [PathLocks.slot?_make] at hs
    rw [List.countP_append]
    split at hs
    · rename_i hm
      obtain rfl : Slot.fresh = s := by simpa using hs
      have hnone : w.handles.countP (holdsSlot m) = 0 := by
        rw [List.countP_eq_zero]
        rintro (_ | a) ha
        · simp
        · have := h.slot_lt ha
          simp only [holdsSlot_some, decide_eq_true_eq]
          omega
      rw [hnone]
      simp [Slot.fresh, hm]
    · rename_i hm
      have : w.locks.slots.length ≠ m := fun h ↦ hm h.symm
      simp [h.counted _ _ hs, this]

/-- A caller takes a slot for a path. -/
theorem take (h : w.Tabled) (p : Path) :
    Tabled { w with
      locks := (w.locks.hold p).2
      handles := w.handles ++ [some ⟨p, (w.locks.hold p).1⟩] } := by
  cases hfind : w.locks.find? p with
  | some n =>
    rw [PathLocks.hold_eq_of_find? hfind]
    exact h.takeFound hfind
  | none =>
    rw [PathLocks.hold_eq_make hfind]
    exact h.takeMade hfind

/-- A caller lets go of its slot. -/
theorem letGo (h : w.Tabled) {i : Nat} {a : LockHandle} (hi : w.handles[i]? = some (some a)) :
    Tabled { w with locks := w.locks.release a.slot, handles := w.handles.set i none } where
  paths := h.paths
  slots := h.slots
  made e he := by simpa [PathLocks.release] using h.made e he
  found b hb := h.found b ((List.mem_or_eq_of_mem_set hb).resolve_right (by simp))
  counted m s hs := by
    obtain ⟨hlt, hget⟩ := List.getElem?_eq_some_iff.mp hi
    rw [List.countP_set hlt, hget]
    rcases PathLocks.slot?_change_eq_some.mp hs with ⟨rfl, s₀, hs₀, rfl⟩ | ⟨hm, hs⟩
    · simp [h.counted _ _ hs₀]
    · simp [h.counted _ _ hs, hm.symm]

end Tabled

end LockWorld

end CodeNav
