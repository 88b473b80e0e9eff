import CodeNav.Proofs.Text.Split

/-!
# Replacing parts of a text

Every occurrence of a pattern is replaced from the left and without overlap. The replacement joins
what stood before and after an occurrence, so in general the pattern may occur again, and others may
occur that have not occurred before. They do not when they have no character of the mark that is put
in place of the pattern: then the mark keeps apart what stands around it.

## Main statements

* `replaceAll_of_not_infix`: a text without the pattern stays as it is
* `infix_of_infix_replaceAll`: what has no character of the mark occurs afterwards only if it
  occurred before
* `not_infix_replaceAll`: the pattern does not occur afterwards
-/

namespace CodeNav.Text

variable {pat mark cs q : List Char} {skip : Nat}

theorem isSome_dropLead?_iff : (dropLead? pat cs).isSome = true ↔ pat <+: cs := by
  rw [Option.isSome_iff_exists]
  exact exists_congr fun rest ↦ dropLead?_eq_some.trans eq_comm

/-- A text without the pattern stays as it is. -/
theorem replaceAll_of_not_infix (h : ¬ pat <:+: cs) : replaceAll pat mark cs = cs := by
  have hfrom : replaceFrom pat mark 0 cs = cs := by
    induction cs with
    | nil => rfl
    | cons c cs ih =>
      rw [List.infix_cons_iff, not_or] at h
      rw [replaceFrom, if_neg (mt isSome_dropLead?_iff.mp h.1), ih h.2]
  rw [replaceAll, hfrom, ite_self]

/-! ### Marks that keep apart -/

/-- What has no character of a mark and occurs behind it occurs without the mark as well. -/
theorem infix_of_infix_mark (hmark : mark.Disjoint q) (h : q <:+: mark ++ cs) : q <:+: cs := by
  induction mark with
  | nil => exact h
  | cons m mark ih =>
    obtain ⟨hm, hmark⟩ := List.disjoint_cons_left.mp hmark
    rcases List.infix_cons_iff.mp h with hlead | hrest
    · cases q with
      | nil => exact List.nil_infix
      | cons b q => exact absurd (List.mem_cons.mpr (.inl (List.cons_prefix_cons.mp hlead).1.symm)) hm
    · exact ih hmark hrest

variable (hne : mark ≠ []) (hmark : mark.Disjoint q)

include hne hmark

/-- What has no character of the mark stands at the beginning only if it stood there before. -/
theorem lead_of_lead_replaceFrom (h : q <+: replaceFrom pat mark 0 cs) : q <+: cs := by
  induction cs generalizing q with
  | nil => exact h
  | cons c cs ih =>
    cases q with
    | nil => exact List.nil_prefix
    | cons b q =>
      rw [replaceFrom] at h
      split at h
      · obtain ⟨m, mark, rfl⟩ := List.exists_cons_of_ne_nil hne
        obtain rfl : b = m := (List.cons_prefix_cons.mp h).1
        exact absurd List.mem_cons_self (hmark List.mem_cons_self)
      · obtain ⟨rfl, hrest⟩ := List.cons_prefix_cons.mp h
        exact List.cons_prefix_cons.mpr ⟨rfl, ih (List.disjoint_cons_right.mp hmark).2 hrest⟩

theorem infix_of_infix_replaceFrom (h : q <:+: replaceFrom pat mark skip cs) : q <:+: cs := by
  induction cs generalizing skip with
  | nil => cases skip <;> exact h
  | cons c cs ih =>
    have hlater {skip : Nat} (hq : q <:+: replaceFrom pat mark skip cs) : q <:+: c :: cs :=
      (ih hq).trans (List.suffix_cons c cs).isInfix
    cases skip with
    | succ skip => exact hlater h
    | zero =>
      rw [replaceFrom] at h
      split at h
      · exact hlater (infix_of_infix_mark hmark h)
      · rename_i hpat
        rcases List.infix_cons_iff.mp h with hlead | hrest
        · have hlead : q <+: replaceFrom pat mark 0 (c :: cs) := by rwa [replaceFrom, if_neg hpat]
          exact (lead_of_lead_replaceFrom hne hmark hlead).isInfix
        · exact hlater hrest

/-- What has no character of the mark occurs afterwards only if it occurred before. -/
theorem infix_of_infix_replaceAll (h : q <:+: replaceAll pat mark cs) : q <:+: cs := by
  rw [replaceAll] at h
  split at h
  · exact h
  · exact infix_of_infix_replaceFrom hne hmark h

omit hmark in
/-- A pattern that has no character of the mark does not occur afterwards. -/
theorem not_infix_replaceAll (hmark : mark.Disjoint pat) (hpat : pat ≠ []) :
    ¬ pat <:+: replaceAll pat mark cs := by
  have hfrom (skip : Nat) : ¬ pat <:+: replaceFrom pat mark skip cs := by
    induction cs generalizing skip with
    | nil => cases skip <;> simpa [replaceFrom] using hpat
    | cons c cs ih =>
      cases skip with
      | succ skip => exact ih skip
      | zero =>
        rw [replaceFrom]
        split
        · exact fun h ↦ ih _ (infix_of_infix_mark hmark h)
        · rename_i hlead
          -- At the beginning the pattern would have stood there before, where it was looked for.
          refine fun h ↦ (List.infix_cons_iff.mp h).elim (fun h ↦ hlead ?_) (ih 0)
          have h : pat <+: replaceFrom pat mark 0 (c :: cs) := by rwa [replaceFrom, if_neg hlead]
          exact isSome_dropLead?_iff.mpr (lead_of_lead_replaceFrom hne hmark h)
  rw [replaceAll, if_neg (by simpa using hpat)]
  exact hfrom 0

omit hne hmark in
@[simp] theorem toList_replaced (pat new s : String) :
    (replaced pat new s).toList = replaceAll pat.toList new.toList s.toList :=
  String.toList_ofList

end CodeNav.Text
