import CodeNav.Proofs.Text.Split
import CodeNav.Proofs.Text.Utf8
import CodeNav.Proofs.Url.Characters
import CodeNav.Url.Domain

/-!
# Domain names in ASCII

The form of a domain name is one of ASCII. A name in ASCII and in lower case has itself as its form, if
it has any: its labels may be refused, but none of them is changed.

## Main statements

* `Domain.toNat_lt_of_toAscii?`: the form of a name is one of ASCII
* `Domain.eq_of_toAscii?`: the form of a name in ASCII and in lower case is the name itself
-/

namespace CodeNav

/-! ### Bytes of texts -/

/-- A text without percent signs stands for its own bytes. -/
theorem Percent.decode_of_notMem {cs : List Char} (h : '%' ∉ cs) : decode cs = Text.utf8Bytes cs := by
  fun_induction decode cs with
  | case1 => rfl
  | case2 => exact absurd List.mem_cons_self h
  | case3 => exact absurd List.mem_cons_self h
  | case4 c rest _ ih =>
    rw [ih fun hmem ↦ h (List.mem_cons_of_mem _ hmem)]
    rfl

/-! ### Labels with other characters -/

namespace Punycode

theorem toNat_digitOf_lt {d : Nat} (h : d < 36) : (digitOf d).toNat < 0x80 := by
  have hall : ∀ d < 36, (digitOf d).toNat < 0x80 := by decide
  exact hall d h

theorem toNat_lt_of_mem_deltaDigits {bias k q : Nat} {c : Char} (h : c ∈ deltaDigits bias k q) :
    c.toNat < 0x80 := by
  have ht (k : Nat) : threshold k bias ≤ 26 := threshold_le k bias
  induction k, q using deltaDigits.induct bias with
  | case1 k q t hlt =>
    have hlt : q < threshold k bias := hlt
    rw [deltaDigits, if_pos hlt] at h
    obtain rfl := List.mem_singleton.mp h
    exact toNat_digitOf_lt (by have := ht k; omega)
  | case2 k q t hlt ih =>
    rw [deltaDigits, if_neg hlt] at h
    rcases List.mem_cons.mp h with rfl | h
    · have hpos : 0 < 36 - threshold k bias := by have := ht k; omega
      have hmod := Nat.mod_lt (q - threshold k bias) hpos
      exact toNat_digitOf_lt (by omega)
    · exact ih h

/-- All that was written is ASCII. -/
def Writer.IsAscii (w : Writer) : Prop :=
  ∀ c ∈ w.digits, c.toNat < 0x80

theorem Writer.IsAscii.pass {w : Writer} (h : w.IsAscii) (basic n : Nat) (c : Char) :
    (w.pass basic n c).IsAscii := by
  unfold Writer.pass
  split
  · exact h
  · split
    · intro d hd
      rcases List.mem_append.mp hd with hd | hd
      · exact h d hd
      · exact toNat_lt_of_mem_deltaDigits hd
    · exact h

theorem Writer.IsAscii.placeAll {w : Writer} (h : w.IsAscii) (label : List Char) (basic : Nat)
    (points : List Nat) (n : Nat) : (Punycode.placeAll label basic points n w).IsAscii := by
  induction points generalizing n w with
  | nil => exact h
  | cons m rest ih =>
    have hpassed : ∀ (cs : List Char) (w : Writer), w.IsAscii →
        (cs.foldl (Writer.pass basic m) w).IsAscii := by
      intro cs
      induction cs with
      | nil => exact fun _ h ↦ h
      | cons c cs ih => exact fun w h ↦ ih _ (h.pass basic m c)
    rw [Punycode.placeAll]
    refine ih ?_ _
    exact hpassed label _ h

/-- The form of a label is one of ASCII. -/
theorem toNat_lt_of_mem_encode {label : List Char} {c : Char} (h : c ∈ encode label) :
    c.toNat < 0x80 := by
  have hempty : Writer.IsAscii ⟨[], 0, 72, (label.filter (·.toNat < 0x80)).length⟩ := by
    simp [Writer.IsAscii]
  simp only [encode] at h
  rcases List.mem_append.mp h with h | h
  · rcases List.mem_append.mp h with h | h
    · exact of_decide_eq_true (List.mem_filter.mp h).2
    · split at h
      · cases h
      · obtain rfl := List.mem_singleton.mp h
        decide
  · exact hempty.placeAll _ _ _ _ c h

end Punycode

/-! ### Names -/

namespace Domain

variable {label name cs : List Char} {bytes : List UInt8} {c : Char}

theorem toNat_lt_of_labelToAscii? (h : labelToAscii? label = some name) (hc : c ∈ name) :
    c.toNat < 0x80 := by
  simp only [labelToAscii?] at h
  split at h
  · split at h
    · rename_i hascii
      obtain rfl := Option.some.inj h
      have hall := (Bool.and_eq_true_iff.mp hascii).1
      exact of_decide_eq_true (List.all_eq_true.mp hall c hc)
    · cases h
  · split at h
    · rename_i hascii
      obtain rfl := Option.some.inj h
      exact of_decide_eq_true (List.all_eq_true.mp hascii c hc)
    · split at h
      · obtain rfl := Option.some.inj h
        rcases List.mem_append.mp hc with hc | hc
        · have hall : ∀ c ∈ ['x', 'n', '-', '-'], c.toNat < 0x80 := by simp
          exact hall c hc
        · exact Punycode.toNat_lt_of_mem_encode hc
      · cases h

/-- A label in ASCII is not changed. -/
theorem eq_of_labelToAscii? (h : labelToAscii? label = some name)
    (hascii : ∀ c ∈ label, c.toNat < 0x80) : name = label := by
  have hall : label.all (·.toNat < 0x80) = true := by simpa using hascii
  simp only [labelToAscii?, hall, Bool.true_and, if_true] at h
  split at h
  · split at h
    · exact (Option.some.inj h).symm
    · cases h
  · exact (Option.some.inj h).symm

theorem toAscii?_eq_some (h : toAscii? bytes = some name) : ∃ text labels,
    Text.utf8Text? bytes = some text ∧
      (Text.splitOn '.' (composeChars (text.toList.flatMap foldChar))).mapM labelToAscii? =
        some labels ∧
      name = Text.joinWith '.' labels ∧ ∀ c ∈ name, isForbidden c = false := by
  simp only [toAscii?, Option.bind_eq_bind, Option.bind_eq_some_iff] at h
  obtain ⟨text, htext, labels, hlabels, h⟩ := h
  split at h
  · cases h
  · rename_i hforbidden
    obtain rfl := Option.some.inj h
    exact ⟨text, labels, htext, hlabels, rfl, by simpa using hforbidden⟩

/-- The form of a name is one of ASCII. -/
theorem toNat_lt_of_toAscii? (h : toAscii? bytes = some name) (hc : c ∈ name) : c.toNat < 0x80 := by
  obtain ⟨text, labels, -, hlabels, rfl, -⟩ := toAscii?_eq_some h
  rcases Text.mem_joinWith hc with rfl | ⟨label, hlabel, hc⟩
  · decide
  · obtain ⟨source, -, hsource⟩ := Text.exists_of_mem_mapM hlabels hlabel
    exact toNat_lt_of_labelToAscii? hsource hc

/-- A character of ASCII that is no capital letter. -/
def isSmall (c : Char) : Bool :=
  c.toNat < 0x80 && !('A' ≤ c && c ≤ 'Z')

theorem flatMap_foldChar (h : ∀ c ∈ cs, isSmall c = true) : cs.flatMap foldChar = cs := by
  induction cs with
  | nil => rfl
  | cons c cs ih =>
    have hc := h c List.mem_cons_self
    simp only [isSmall, Bool.and_eq_true, decide_eq_true_eq, Bool.not_eq_true', Bool.and_eq_false_iff,
      decide_eq_false_iff_not] at hc
    rw [List.flatMap_cons, ih fun d hd ↦ h d (List.mem_cons_of_mem _ hd), foldChar,
      if_neg (by tauto), if_pos hc.1]
    rfl

/-- The form of a name in ASCII and in lower case is the name itself. -/
theorem eq_of_toAscii? (h : toAscii? (Text.utf8Bytes cs) = some name)
    (hsmall : ∀ c ∈ cs, isSmall c = true) : name = cs := by
  have hascii : ∀ c ∈ cs, c.toNat < 0x80 := fun c hc ↦
    of_decide_eq_true (Bool.and_eq_true_iff.mp (hsmall c hc)).1
  obtain ⟨text, labels, htext, hlabels, rfl, -⟩ := toAscii?_eq_some h
  obtain rfl : text = String.ofList cs :=
    (Option.some.inj ((Text.utf8Text?_utf8Bytes cs).symm.trans htext)).symm
  have hcompose : composeChars cs = cs := by
    rw [composeChars, if_pos (by simpa using hascii)]
  rw [String.toList_ofList, flatMap_foldChar hsmall, hcompose] at hlabels
  have hsame : labels = Text.splitOn '.' cs :=
    Text.eq_of_mapM hlabels fun label hlabel name hname ↦ eq_of_labelToAscii? hname fun c hc ↦
      hascii c (Text.subset_of_mem_splitOn hlabel hc)
  rw [hsame, Text.joinWith_splitOn]

end Domain

end CodeNav
