import CodeNav.Proofs.Lock.Slots

/-!
# The locks of one path

The locks of a path are a *part* of all locks: they have the slots that were made for the path, in the same
state, under numbers of their own. What is done with the slots of the path comes to the same in the part, and
what is done with other slots leaves it alone, also when slots that nobody holds on to are forgotten, which
happens at other times.

## Main definitions

* `PathLocks.Part`: the locks of a path as a part of all locks
* `PathLocks.Place.Matches`: the same place in a queue

## Main statements

* `PathLocks.Part.find?_eq`, `PathLocks.Part.isHeld_eq`, `PathLocks.Part.admission_eq`: what is seen in the part
* `PathLocks.Part.hold`, `PathLocks.Part.arrive`, `PathLocks.Part.change`: what is done in the part
* `PathLocks.Part.hold_beside`, `PathLocks.Part.change_beside`: what is done beside it
-/

namespace CodeNav.PathLocks

variable {α : Type} {l l' : PathLocks α} {p q : Path} {own : List Nat} {i n : Nat} {a b : Place}

theorem length_hold (l : PathLocks α) (p : Path) : l.slots.length ≤ (l.hold p).2.slots.length := by
  cases hn : l.find? p with
  | some n => simp [hold_eq_of_find? hn]
  | none => simp [hold_eq_make hn, make]

theorem length_arrive (l : PathLocks α) (n : Nat) : (l.arrive n).2.slots.length = l.slots.length := by
  simp only [arrive]
  split <;> simp

/-- The locks `l'` are those that `l` has for a path; the slot with number `i` is there the one with number
`own[i]`. -/
structure Part (p : Path) (own : List Nat) (l l' : PathLocks α) : Prop where
  paths : (l.table.map fun e ↦ e.1.components).Nodup
  paths' : (l'.table.map fun e ↦ e.1.components).Nodup
  made : ∀ e ∈ l.table, e.2 < l.slots.length
  below : ∀ n ∈ own, n < l.slots.length
  nodup : own.Nodup
  slots : l'.slots.map some = own.map l.slot?
  others : ∀ e ∈ l.table, e.1.same p = false → e.2 ∉ own
  found : ∀ e ∈ l.table, e.1.same p = true → ∃ e' ∈ l'.table, e'.1.same p = true ∧ own[e'.2]? = some e.2
  kept : ∀ e' ∈ l'.table, e'.1.same p = true → l'.isLive e'.2 = true →
    ∃ e ∈ l.table, e.1.same p = true ∧ own[e'.2]? = some e.2

/-- The same place in the queue of a slot. -/
structure Place.Matches (own : List Nat) (a b : Place) : Prop where
  slot : own[b.slot]? = some a.slot
  ticket : a.ticket = b.ticket
  seen : a.seen = b.seen

/-- Places stay the same when there are more slots. -/
theorem Place.Matches.mono {own' : List Nat} (h : a.Matches own b) (hown : own <+: own') :
    a.Matches own' b where
  slot := by
    obtain ⟨more, rfl⟩ := hown
    rw [List.getElem?_append_left (List.getElem?_eq_some_iff.mp h.slot).1]
    exact h.slot
  ticket := h.ticket
  seen := h.seen

/-- No slots have been made yet. -/
theorem part_none (p : Path) : Part p [] (.none : PathLocks α) .none where
  paths := List.nodup_nil
  paths' := List.nodup_nil
  made := by simp [PathLocks.none]
  below := by simp
  nodup := List.nodup_nil
  slots := rfl
  others := by simp [PathLocks.none]
  found := by simp [PathLocks.none]
  kept := by simp [PathLocks.none]

namespace Part

variable (h : Part p own l l')
include h

/-! ### What is seen in the part -/

theorem length_eq : l'.slots.length = own.length := by
  simpa using congrArg List.length h.slots

theorem slot?_eq (hi : own[i]? = some n) : l'.slot? i = l.slot? n := by
  have hslots := congrArg (·[i]?) h.slots
  simp only [List.getElem?_map, hi, Option.map_some] at hslots
  obtain ⟨s, hs, hsome⟩ := Option.map_eq_some_iff.mp hslots
  exact hs.trans hsome

theorem isLive_eq (hi : own[i]? = some n) : l'.isLive i = l.isLive n := by
  rw [isLive, h.slot?_eq hi, isLive]

/-- What is found in the part is what is found in all locks. -/
theorem find?_eq : (l'.find? p).bind (own[·]?) = l.find? p := by
  refine Option.ext fun n ↦ ?_
  rw [Option.bind_eq_some_iff, find?_eq_some_iff h.paths]
  constructor
  · rintro ⟨i, hi, hown⟩
    obtain ⟨e', he', hsame, rfl, hlive⟩ := (find?_eq_some_iff h.paths').mp hi
    obtain ⟨e, he, hesame, heown⟩ := h.kept e' he' hsame hlive
    obtain rfl := Option.some.inj (heown.symm.trans hown)
    exact ⟨e, he, hesame, rfl, h.isLive_eq hown ▸ hlive⟩
  · rintro ⟨e, he, hsame, rfl, hlive⟩
    obtain ⟨e', he', hsame', hown⟩ := h.found e he hsame
    exact ⟨e'.2, (find?_eq_some_iff h.paths').mpr ⟨e', he', hsame', rfl, (h.isLive_eq hown).trans hlive⟩, hown⟩

/-- What is found in the part has a number in all locks. -/
theorem exists_own (hi : l'.find? p = some i) : ∃ n, own[i]? = some n ∧ l.find? p = some n := by
  obtain ⟨-, -, -, -, hlive⟩ := (find?_eq_some_iff h.paths').mp hi
  obtain ⟨s, hs, -⟩ := isLive_iff.mp hlive
  have hlt : i < own.length := h.length_eq ▸ (List.getElem?_eq_some_iff.mp hs).1
  refine ⟨own[i], List.getElem?_eq_getElem hlt, ?_⟩
  rw [← h.find?_eq, hi, Option.bind_some, List.getElem?_eq_getElem hlt]

theorem find?_eq_none (hi : l'.find? p = Option.none) : l.find? p = Option.none := by
  rw [← h.find?_eq, hi, Option.bind_none]

theorem isHeld_eq : l'.isHeld p = l.isHeld p := by
  cases hi : l'.find? p with
  | none => rw [isHeld, hi, isHeld, h.find?_eq_none hi]
  | some i =>
    obtain ⟨n, -, hn⟩ := h.exists_own hi
    rw [isHeld, hi, isHeld, hn]
    rfl

/-- A place has come to the same in the part. -/
theorem admission_eq (hab : a.Matches own b) : l'.admission b = l.admission a := by
  simp only [admission, h.slot?_eq hab.slot, hab.ticket, hab.seen]

/-! ### What is done in the part -/

/-- A slot of the path is changed. -/
theorem change (hi : own[i]? = some n) {f : Slot α → Slot α}
    (hf : ∀ s, l.slot? n = some s → (f s).isLive = true → s.isLive = true) :
    Part p own (l.change n f) (l'.change i f) where
  paths := h.paths
  paths' := h.paths'
  made e he := by simpa using h.made e he
  below m hm := by simpa using h.below m hm
  nodup := h.nodup
  slots := by
    refine List.ext_getElem? fun j ↦ ?_
    rw [List.getElem?_map, List.getElem?_map]
    cases hj : own[j]? with
    | none =>
      have hge : l'.slots.length ≤ j := by
        rw [h.length_eq]
        exact List.getElem?_eq_none_iff.mp hj
      rw [List.getElem?_eq_none (by simpa using hge)]
      rfl
    | some m =>
      obtain ⟨s, hs⟩ := slot?_isSome (h.below m (List.mem_of_getElem? hj))
      have heq := (h.slot?_eq hj).trans hs
      have hsame : i = j ↔ n = m := by
        refine ⟨fun hij ↦ Option.some.inj (hi.symm.trans (hij ▸ hj)), fun hnm ↦ ?_⟩
        exact (List.getElem?_inj (List.getElem?_eq_some_iff.mp hi).1 h.nodup).mp (by rw [hi, hj, hnm])
      have hleft : (l'.change i f).slots[j]? = (l.change n f).slot? m := by
        change (l'.change i f).slot? j = _
        rw [slot?_change, slot?_change, heq, hs]
        simp only [hsame]
      have hright : ∃ s, (l.change n f).slot? m = some s := by
        rw [slot?_change, hs]
        split <;> exact ⟨_, rfl⟩
      obtain ⟨s', hs'⟩ := hright
      rw [hleft, Option.map_some, hs']
      rfl
  others := h.others
  found := h.found
  kept e' he' hsame hlive := by
    refine h.kept e' he' hsame ?_
    obtain ⟨s, hs, hholders⟩ := isLive_iff.mp hlive
    rcases slot?_change_eq_some.mp hs with ⟨heq, s₀, hs₀, rfl⟩ | ⟨-, hs⟩
    · rw [heq] at hs₀ ⊢
      have hlive₀ := hf s₀ ((h.slot?_eq hi).symm.trans hs₀) (by simpa [Slot.isLive] using hholders)
      exact isLive_iff.mpr ⟨s₀, hs₀, by simpa [Slot.isLive] using hlive₀⟩
    · exact isLive_iff.mpr ⟨s, hs, hholders⟩

/-- A slot is made for the path. -/
theorem make (hnone : l'.find? p = Option.none) :
    Part p (own ++ [l.slots.length]) (l.make p) (l'.make p) := by
  have hnone' := h.find?_eq_none hnone
  have hnew : l.slots.length ∉ own := fun hmem ↦ Nat.lt_irrefl _ (h.below _ hmem)
  have hlast : (own ++ [l.slots.length])[l'.slots.length]? = some l.slots.length := by
    rw [h.length_eq, List.getElem?_concat_length]
  refine ⟨nodup_paths_make h.paths hnone', nodup_paths_make h.paths' hnone, ?_, ?_, ?_, ?_, ?_, ?_, ?_⟩
  · intro e he
    simp only [PathLocks.make, List.length_append, List.length_singleton] at he ⊢
    rcases List.mem_append.mp he with he | he
    · exact Nat.lt_succ_of_lt (h.made e (List.mem_of_mem_filter he))
    · rw [List.mem_singleton.mp he]
      exact Nat.lt_succ_self _
  · intro n hn
    simp only [PathLocks.make, List.length_append, List.length_singleton]
    rcases List.mem_append.mp hn with hn | hn
    · exact Nat.lt_succ_of_lt (h.below n hn)
    · rw [List.mem_singleton.mp hn]
      exact Nat.lt_succ_self _
  · exact List.Nodup.append h.nodup (List.nodup_singleton _) (by simpa using hnew)
  · have hold : own.map (l.make p).slot? = own.map l.slot? := by
      refine List.map_congr_left fun n hn ↦ ?_
      rw [slot?_make, if_neg (Nat.ne_of_lt (h.below n hn))]
    rw [List.map_append, hold, ← h.slots, List.map_singleton, slot?_make, if_pos rfl]
    simp [PathLocks.make]
  · intro e he hsame
    rcases List.mem_append.mp he with he | he
    · have he := List.mem_of_mem_filter he
      simp [h.others e he hsame, Nat.ne_of_lt (h.made e he)]
    · rw [List.mem_singleton.mp he, Path.same_refl] at hsame
      cases hsame
  · intro e he hsame
    rcases List.mem_append.mp he with he | he
    · -- An entry of the path that is not forgotten would have been found.
      obtain ⟨he, hlive⟩ := List.mem_filter.mp he
      rw [(find?_eq_some_iff h.paths).mpr ⟨e, he, hsame, rfl, hlive⟩] at hnone'
      cases hnone'
    · rw [List.mem_singleton.mp he]
      exact ⟨_, List.mem_append_right _ (List.mem_singleton_self _), Path.same_refl p, hlast⟩
  · intro e' he' hsame _
    rcases List.mem_append.mp he' with he' | he'
    · obtain ⟨he', hlive⟩ := List.mem_filter.mp he'
      rw [(find?_eq_some_iff h.paths').mpr ⟨e', he', hsame, rfl, hlive⟩] at hnone
      cases hnone
    · rw [List.mem_singleton.mp he']
      exact ⟨_, List.mem_append_right _ (List.mem_singleton_self _), Path.same_refl p, hlast⟩

/-- One more caller holds on to the slot of the path. The numbers of other slots stay those of other
slots. -/
theorem hold : ∃ own', own <+: own' ∧ own'[(l'.hold p).1]? = some (l.hold p).1 ∧
    Part p own' (l.hold p).2 (l'.hold p).2 ∧ ∀ n, n < l.slots.length → n ∉ own → n ∉ own' := by
  cases hi : l'.find? p with
  | some i =>
    obtain ⟨n, hown, hn⟩ := h.exists_own hi
    rw [hold_eq_of_find? hi, hold_eq_of_find? hn]
    refine ⟨own, List.prefix_refl _, hown, h.change hown fun s hs _ ↦ ?_, fun _ _ hm ↦ hm⟩
    obtain ⟨-, -, -, -, hlive⟩ := (find?_eq_some_iff h.paths).mp hn
    obtain ⟨s', hs', hholders⟩ := isLive_iff.mp hlive
    obtain rfl := Option.some.inj (hs.symm.trans hs')
    simpa [Slot.isLive] using hholders
  | none =>
    rw [hold_eq_make hi, hold_eq_make (h.find?_eq_none hi)]
    refine ⟨_, List.prefix_append .., ?_, h.make hi, fun n hn hm ↦ ?_⟩
    · rw [h.length_eq, List.getElem?_concat_length]
    · simp [hm, Nat.ne_of_lt hn]

/-- A caller queues up in a slot of the path. -/
theorem arrive (hi : own[i]? = some n) : (l.arrive n).1.Matches own (l'.arrive i).1 ∧
    Part p own (l.arrive n).2 (l'.arrive i).2 := by
  obtain ⟨s, hs⟩ := slot?_isSome (h.below n (List.mem_of_getElem? hi))
  have hs' := (h.slot?_eq hi).trans hs
  simp only [PathLocks.arrive, hs, hs']
  exact ⟨⟨hi, rfl, rfl⟩, h.change hi fun _ _ hlive ↦ hlive⟩

theorem leave (hab : a.Matches own b) : Part p own (l.leave a) (l'.leave b) := by
  rw [PathLocks.leave, PathLocks.leave, hab.ticket]
  exact h.change hab.slot fun _ _ hlive ↦ hlive

theorem finish (hab : a.Matches own b) (x : α) : Part p own (l.finish a x) (l'.finish b x) := by
  rw [PathLocks.finish, PathLocks.finish, hab.ticket]
  exact h.change hab.slot fun _ _ hlive ↦ hlive

theorem release (hi : own[i]? = some n) : Part p own (l.release n) (l'.release i) := by
  refine h.change hi fun s _ hlive ↦ ?_
  simp only [Slot.isLive, ne_eq, decide_eq_true_eq] at hlive ⊢
  omega

/-! ### What is done beside the part -/

/-- Another slot is changed. -/
theorem change_beside (hn : n ∉ own) (f : Slot α → Slot α) : Part p own (l.change n f) l' where
  paths := h.paths
  paths' := h.paths'
  made e he := by simpa using h.made e he
  below m hm := by simpa using h.below m hm
  nodup := h.nodup
  slots := by
    rw [h.slots]
    refine List.map_congr_left fun m hm ↦ ?_
    rw [slot?_change_of_ne f]
    rintro rfl
    exact hn hm
  others := h.others
  found := h.found
  kept := h.kept

/-- A slot is made for another path, and slots that nobody holds on to are forgotten. -/
theorem make_beside (hq : q.same p = false) (hnone : l.find? q = Option.none) :
    Part p own (l.make q) l' := by
  refine ⟨nodup_paths_make h.paths hnone, h.paths', ?_, ?_, h.nodup, ?_, ?_, ?_, ?_⟩
  · intro e he
    simp only [PathLocks.make, List.length_append, List.length_singleton] at he ⊢
    rcases List.mem_append.mp he with he | he
    · exact Nat.lt_succ_of_lt (h.made e (List.mem_of_mem_filter he))
    · rw [List.mem_singleton.mp he]
      exact Nat.lt_succ_self _
  · intro n hn
    simp only [PathLocks.make, List.length_append, List.length_singleton]
    exact Nat.lt_succ_of_lt (h.below n hn)
  · rw [h.slots]
    refine List.map_congr_left fun n hn ↦ ?_
    rw [slot?_make, if_neg (Nat.ne_of_lt (h.below n hn))]
  · intro e he hsame hmem
    rcases List.mem_append.mp he with he | he
    · exact h.others e (List.mem_of_mem_filter he) hsame hmem
    · rw [List.mem_singleton.mp he] at hmem
      exact Nat.lt_irrefl _ (h.below _ hmem)
  · intro e he hsame
    rcases List.mem_append.mp he with he | he
    · exact h.found e (List.mem_of_mem_filter he) hsame
    · rw [List.mem_singleton.mp he, hq] at hsame
      cases hsame
  · intro e' he' hsame hlive
    obtain ⟨e, he, hesame, hown⟩ := h.kept e' he' hsame hlive
    exact ⟨e, List.mem_append_left _ (List.mem_filter.mpr ⟨he, h.isLive_eq hown ▸ hlive⟩), hesame, hown⟩

/-- One more caller holds on to the slot of another path. -/
theorem hold_beside (hq : q.same p = false) : (l.hold q).1 ∉ own ∧
    (l.hold q).1 < (l.hold q).2.slots.length ∧ Part p own (l.hold q).2 l' := by
  cases hn : l.find? q with
  | some n =>
    rw [hold_eq_of_find? hn]
    obtain ⟨e, he, hsame, rfl, -⟩ := (find?_eq_some_iff h.paths).mp hn
    have hother : e.1.same p = false := by
      rw [← Bool.not_eq_true] at hq ⊢
      exact fun hep ↦ hq (Path.same_trans (Path.same_symm hsame) hep)
    have hnot := h.others e he hother
    exact ⟨hnot, by simpa using h.made e he, h.change_beside hnot _⟩
  | none =>
    rw [hold_eq_make hn]
    refine ⟨fun hmem ↦ Nat.lt_irrefl _ (h.below _ hmem), ?_, h.make_beside hq hn⟩
    simp [PathLocks.make]

end Part

end CodeNav.PathLocks
