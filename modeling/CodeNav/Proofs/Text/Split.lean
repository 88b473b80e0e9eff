import CodeNav.Text.Split
import Mathlib.Data.List.Basic
import Mathlib.Data.List.Forall2

/-!
# Cutting texts and putting them together

Cutting at a character and joining are those of lists in general, and inverse to each other on pieces
without the character. An ending that is taken off is the ending itself.

## Main statements

* `splitOn_eq`, `joinWith_eq`: cutting and joining are those of lists
* `notMem_of_mem_splitOn`: no piece has the separator in it
* `splitOn_joinWith`: cutting undoes joining
* `stripSuffix_eq_or`: what `stripSuffix` leaves
* `mapM_eq_some_iff`: pieces that are read one by one
-/

namespace CodeNav.Text

variable {sep : Char} {p q cs : List Char} {pieces : List (List Char)}

theorem splitOn_eq (sep : Char) (cs : List Char) : splitOn sep cs = cs.splitOn sep := by
  induction cs with
  | nil => rw [splitOn, List.splitOn_nil]
  | cons c cs ih =>
    rw [List.splitOn_cons_eq_if_modifyHead, ← ih, splitOn]
    by_cases hc : c = sep
    · simp [hc]
    · obtain ⟨first, more, hsplit⟩ := List.exists_cons_of_ne_nil (splitOn_ne_nil sep cs)
      simp [hc, hsplit]

theorem joinWith_eq (sep : Char) (pieces : List (List Char)) :
    joinWith sep pieces = [sep].intercalate pieces := by
  induction pieces with
  | nil => rfl
  | cons p rest ih =>
    cases rest with
    | nil => simp [joinWith]
    | cons q rest => rw [joinWith, ih, List.intercalate_cons_cons, List.append_assoc]; rfl

/-- A text without the separator is one piece. -/
theorem splitOn_of_notMem (h : sep ∉ p) : splitOn sep p = [p] := by
  rw [splitOn_eq, List.splitOn_eq_singleton h]

theorem splitOn_append_cons (sep : Char) (p q : List Char) :
    splitOn sep (p ++ sep :: q) = splitOn sep p ++ splitOn sep q := by
  simp only [splitOn_eq, List.splitOn_append_cons_self]

/-- Changes that leave the separator alone can be made before or after. -/
theorem splitOn_map {f : Char → Char} (hf : ∀ c, f c = sep ↔ c = sep) (cs : List Char) :
    splitOn sep (cs.map f) = (splitOn sep cs).map (List.map f) := by
  induction cs with
  | nil => rfl
  | cons c cs ih =>
    obtain ⟨first, more, hsplit⟩ := List.exists_cons_of_ne_nil (splitOn_ne_nil sep cs)
    rw [hsplit] at ih
    by_cases hc : c = sep
    · simp [splitOn, hc, (hf sep).mpr rfl, ih, hsplit]
    · simp [splitOn, hc, mt (hf c).mp hc, ih, hsplit]

/-- No piece has the separator in it. -/
theorem notMem_of_mem_splitOn (h : p ∈ splitOn sep cs) : sep ∉ p := by
  induction cs generalizing p with
  | nil =>
    obtain rfl : p = [] := by simpa [splitOn] using h
    exact List.not_mem_nil
  | cons c cs ih =>
    obtain ⟨first, more, hsplit⟩ := List.exists_cons_of_ne_nil (splitOn_ne_nil sep cs)
    simp only [splitOn, hsplit] at h
    split at h
    · rcases List.mem_cons.mp h with rfl | h
      · exact List.not_mem_nil
      · exact ih (hsplit ▸ h)
    · rename_i hc
      rcases List.mem_cons.mp h with rfl | h
      · have hfirst : sep ∉ first := ih (hsplit ▸ List.mem_cons_self)
        simp [hfirst, Ne.symm hc]
      · exact ih (hsplit ▸ List.mem_cons_of_mem _ h)

/-- Cutting undoes joining. -/
theorem splitOn_joinWith (hne : pieces ≠ []) (h : ∀ p ∈ pieces, sep ∉ p) :
    splitOn sep (joinWith sep pieces) = pieces := by
  rw [splitOn_eq, joinWith_eq, List.splitOn_intercalate sep h hne]

theorem joinWith_append {front back : List (List Char)} (hfront : front ≠ []) (hback : back ≠ []) :
    joinWith sep (front ++ back) = joinWith sep front ++ sep :: joinWith sep back := by
  fun_induction joinWith sep front with
  | case1 => exact absurd rfl hfront
  | case2 p =>
    obtain ⟨q, rest, rfl⟩ := List.exists_cons_of_ne_nil hback
    rfl
  | case3 p q rest ih => simpa [joinWith] using ih (by simp)

/-- Some of the pieces are those of what stands before a separator, and the others of what stands after it. -/
theorem exists_of_splitOn_eq_append {front back : List (List Char)} (h : splitOn sep cs = front ++ back)
    (hfront : front ≠ []) (hback : back ≠ []) :
    ∃ p q, cs = p ++ sep :: q ∧ splitOn sep p = front ∧ splitOn sep q = back := by
  have hnot (p : List Char) (hp : p ∈ front ++ back) : sep ∉ p := notMem_of_mem_splitOn (h ▸ hp)
  refine ⟨joinWith sep front, joinWith sep back, ?_, ?_, ?_⟩
  · rw [← joinWith_append hfront hback, ← h, joinWith_splitOn]
  · exact splitOn_joinWith hfront fun p hp ↦ hnot p (List.mem_append_left _ hp)
  · exact splitOn_joinWith hback fun p hp ↦ hnot p (List.mem_append_right _ hp)

theorem subset_joinWith (sep : Char) (h : p ∈ pieces) : p ⊆ joinWith sep pieces := by
  fun_induction joinWith sep pieces with
  | case1 => cases h
  | case2 q =>
    obtain rfl := List.mem_singleton.mp h
    exact List.Subset.refl _
  | case3 q r rest ih =>
    rcases List.mem_cons.mp h with rfl | h
    · exact List.subset_append_left _ _
    · exact fun c hc ↦ List.mem_append_right _ (List.mem_cons_of_mem _ (ih h hc))

theorem mem_joinWith {c : Char} (h : c ∈ joinWith sep pieces) : c = sep ∨ ∃ p ∈ pieces, c ∈ p := by
  fun_induction joinWith sep pieces with
  | case1 => cases h
  | case2 q => exact Or.inr ⟨q, List.mem_singleton_self q, h⟩
  | case3 q r rest ih =>
    rcases List.mem_append.mp h with h | h
    · exact Or.inr ⟨q, List.mem_cons_self, h⟩
    · rcases List.mem_cons.mp h with h | h
      · exact Or.inl h
      · exact (ih h).imp_right fun ⟨p, hp, hc⟩ ↦ ⟨p, List.mem_cons_of_mem _ hp, hc⟩

theorem subset_of_mem_splitOn (h : p ∈ splitOn sep cs) : p ⊆ cs := by
  have hsubset := subset_joinWith sep h
  rwa [joinWith_splitOn] at hsubset

theorem dropLead?_eq_some : dropLead? p cs = some q ↔ cs = p ++ q := by
  induction p generalizing cs with
  | nil => simp [dropLead?]
  | cons a p ih =>
    cases cs with
    | nil => simp [dropLead?]
    | cons c cs =>
      by_cases hc : a = c
      · simp [dropLead?, hc, ih]
      · simp [dropLead?, hc, Ne.symm hc]

/-- What `stripSuffix` takes off is the ending. -/
theorem stripSuffix_eq_or (ending cs : List Char) :
    stripSuffix ending cs = cs ∨ cs = stripSuffix ending cs ++ ending := by
  rw [stripSuffix]
  split
  · rename_i rest hrest
    refine Or.inr (List.reverse_injective ?_)
    simpa using dropLead?_eq_some.mp hrest
  · exact Or.inl rfl

theorem stripSuffix_append (p ending : List Char) : stripSuffix ending (p ++ ending) = p := by
  have hlead : dropLead? ending.reverse (p ++ ending).reverse = some p.reverse :=
    dropLead?_eq_some.mpr (List.reverse_append ..)
  rw [stripSuffix, hlead]
  exact List.reverse_reverse p

/-- Pieces are read when each of them is. -/
theorem mapM_eq_some_iff {α β : Type} {f : α → Option β} {l : List α} {l' : List β} :
    l.mapM f = some l' ↔ List.Forall₂ (fun a b ↦ f a = some b) l l' := by
  induction l generalizing l' with
  | nil => simp [eq_comm]
  | cons a l ih =>
    cases l' with
    | nil =>
      cases hf : f a <;> cases hl : l.mapM f <;> simp [List.mapM_cons, hf, hl]
    | cons b l' =>
      simp only [List.mapM_cons, List.forall₂_cons, ← ih]
      cases f a <;> cases l.mapM f <;> simp

/-- What is read is read of some piece. -/
theorem exists_of_mem_mapM {α β : Type} {f : α → Option β} {l : List α} {l' : List β} {b : β}
    (h : l.mapM f = some l') (hb : b ∈ l') : ∃ a ∈ l, f a = some b := by
  induction mapM_eq_some_iff.mp h with
  | nil => cases hb
  | cons hread hrest ih =>
    rcases List.mem_cons.mp hb with rfl | hb
    · exact ⟨_, List.mem_cons_self, hread⟩
    · obtain ⟨a, ha, hread⟩ := ih (mapM_eq_some_iff.mpr hrest) hb
      exact ⟨a, List.mem_cons_of_mem _ ha, hread⟩

/-- Pieces that are only read as themselves. -/
theorem eq_of_mapM {α : Type} {f : α → Option α} {l l' : List α} (h : l.mapM f = some l')
    (hf : ∀ a ∈ l, ∀ b, f a = some b → b = a) : l' = l := by
  induction mapM_eq_some_iff.mp h with
  | nil => rfl
  | cons hread hrest ih =>
    rw [hf _ List.mem_cons_self _ hread,
      ih (mapM_eq_some_iff.mpr hrest) fun a ha ↦ hf a (List.mem_cons_of_mem _ ha)]

/-- Pieces that are read as what they were made of. -/
theorem mapM_map_eq_some {α β : Type} {f : β → Option α} {g : α → β} {l : List α}
    (h : ∀ a ∈ l, f (g a) = some a) : (l.map g).mapM f = some l := by
  refine mapM_eq_some_iff.mpr (List.forall₂_map_left_iff.mpr ?_)
  exact List.forall₂_same.mpr h

end CodeNav.Text
