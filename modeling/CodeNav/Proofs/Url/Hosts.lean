import CodeNav.Proofs.Url.Domain
import CodeNav.Proofs.Url.Numbers

/-!
# Hosts are read as they are written

Whatever a host was written like, it is written out in one form: a name in ASCII, four numbers, or
groups in brackets. When this form, in lower case, is read again as a host, it is the same host.

## Main definitions

* `Url.hostOf`: the host that a text names in an address of some kind
* `Url.IsHostText`: a host as it is written

## Main statements

* `Url.isHostText_of_hostOf`: how a host that was read is written
* `Url.text_of_hostOf`: a host in lower case is read as it is written
-/

namespace CodeNav

/-! ### Lower case -/

namespace Url

/-- Only capital letters of ASCII are changed. -/
theorem lower_cases (c : Char) : lower c = c ∨
    ∃ k < 26, c = Char.ofNat (65 + k) ∧ lower c = Char.ofNat (97 + k) := by
  rw [lower]
  split
  · rename_i hc
    have hlow : 65 ≤ c.toNat := toNat_le_iff.mp hc.1
    have hhigh : c.toNat ≤ 90 := toNat_le_iff.mp hc.2
    refine Or.inr ⟨c.toNat - 65, by omega, ?_, congrArg Char.ofNat (by omega)⟩
    rw [Nat.add_sub_cancel' hlow, Char.ofNat_toNat]
  · exact Or.inl rfl

/-- A character that is not a letter is in lower case only itself. -/
theorem lower_eq_iff {c d : Char} (hd : ∀ k < 26, Char.ofNat (65 + k) ≠ d ∧ Char.ofNat (97 + k) ≠ d) :
    lower c = d ↔ c = d := by
  rcases lower_cases c with heq | ⟨k, hk, rfl, heq⟩
  · rw [heq]
  · rw [heq]
    exact iff_of_false (hd k hk).2 (hd k hk).1

end Url

/-! ### Numbers in lower case -/

namespace Ipv4

variable {base : Nat} {cs : List Char}

theorem digitIn?_lower (hbase : base ∈ [8, 10, 16]) (c : Char) :
    digitIn? base (Url.lower c) = digitIn? base c := by
  have hall : ∀ base ∈ [8, 10, 16], ∀ k < 26,
      digitIn? base (Char.ofNat (97 + k)) = digitIn? base (Char.ofNat (65 + k)) := by decide
  rcases Url.lower_cases c with heq | ⟨k, hk, rfl, heq⟩
  · rw [heq]
  · rw [heq, hall base hbase k hk]

theorem numberIn?_lower (hbase : base ∈ [8, 10, 16]) (cs : List Char) :
    numberIn? base (cs.map Url.lower) = numberIn? base cs := by
  simp only [numberIn?, List.foldl_map, digitIn?_lower hbase]

theorem number?_of_ne {c : Char} (h : c ≠ '0') : number? (c :: cs) = numberIn? 10 (c :: cs) := by
  rw [number?] <;> simp [h]

theorem number?_hex {c : Char} (h : c = 'x' ∨ c = 'X') : number? ('0' :: c :: cs) = numberIn? 16 cs := by
  rcases h with rfl | rfl <;> rfl

theorem number?_octal {c : Char} (h : ¬ (c = 'x' ∨ c = 'X')) :
    number? ('0' :: c :: cs) = numberIn? 8 (c :: cs) := by
  rw [not_or] at h
  rw [number?] <;> simp [h.1, h.2]

theorem number?_lower (cs : List Char) : number? (cs.map Url.lower) = number? cs := by
  cases cs with
  | nil => rfl
  | cons c cs =>
    by_cases hc : c = '0'
    · subst hc
      cases cs with
      | nil => rfl
      | cons d cs =>
        have hzero : Url.lower '0' = '0' := by decide
        rw [List.map_cons, List.map_cons, hzero]
        by_cases hd : d = 'x' ∨ d = 'X'
        · have hlower : Url.lower d = 'x' := by rcases hd with rfl | rfl <;> decide
          rw [number?_hex hd, number?_hex (Or.inl hlower), numberIn?_lower (by decide)]
        · have hlower : ¬ (Url.lower d = 'x' ∨ Url.lower d = 'X') := by
            rcases Url.lower_cases d with heq | ⟨k, hk, rfl, heq⟩
            · rwa [heq]
            · have hall : ∀ k < 26, ¬ (Char.ofNat (65 + k) = 'x' ∨ Char.ofNat (65 + k) = 'X') →
                  ¬ (Char.ofNat (97 + k) = 'x' ∨ Char.ofNat (97 + k) = 'X') := by decide
              rw [heq]
              exact hall k hk hd
          rw [number?_octal hd, number?_octal hlower, ← List.map_cons, numberIn?_lower (by decide)]
    · have hlower : Url.lower c ≠ '0' := by
        exact mt (Url.lower_eq_iff (by decide)).mp hc
      rw [List.map_cons, number?_of_ne hc, number?_of_ne hlower, ← List.map_cons,
        numberIn?_lower (by decide)]

/-- Numbers are told in lower case as well. -/
theorem endsInNumber_lower (cs : List Char) : endsInNumber (cs.map Url.lower) = endsInNumber cs := by
  have hlabels : labels (cs.map Url.lower) = (labels cs).map (List.map Url.lower) := by
    have hdot (c : Char) : Url.lower c = '.' ↔ c = '.' := Url.lower_eq_iff (by decide)
    have hsplit : Text.splitOn '.' (cs.map Url.lower) = (Text.splitOn '.' cs).map (List.map Url.lower) :=
      Text.splitOn_map hdot cs
    simp only [labels, hsplit, List.getLast?_map]
    rcases (Text.splitOn '.' cs).getLast? with _ | _ | ⟨c, last⟩ <;> simp
  have hdigit (c : Char) : ('0' ≤ Url.lower c && Url.lower c ≤ '9') = ('0' ≤ c && c ≤ '9') := by
    have hall : ∀ k < 26, ('0' ≤ Char.ofNat (97 + k) && Char.ofNat (97 + k) ≤ '9') =
        ('0' ≤ Char.ofNat (65 + k) && Char.ofNat (65 + k) ≤ '9') := by decide
    rcases Url.lower_cases c with heq | ⟨k, hk, rfl, heq⟩
    · rw [heq]
    · rw [heq, hall k hk]
  rw [endsInNumber, endsInNumber, hlabels, List.getLast?_map]
  cases (labels cs).getLast? with
  | none => rfl
  | some label => simp [number?_lower, Function.comp_def, hdigit]

end Ipv4

/-! ### Hosts -/

namespace Url

variable {kind : Kind} {host : Host} {cs s : List Char}

/-- The host that a text names in an address of some kind. -/
def hostOf (kind : Kind) (cs : List Char) : Except ParseError Host :=
  if kind = .other then foreignHost cs else namedHost cs

/-- A name of a host, or an IPv4 address, as it is written. -/
structure IsNameText (kind : Kind) (s : List Char) : Prop where
  ne_nil : s ≠ []
  chars : ∀ c ∈ s, isHostChar c = true
  percent : kind ≠ .other → '%' ∉ s
  number : kind ≠ .other → Ipv4.endsInNumber s = true → ∃ address, s = Ipv4.text address

/-- A host as it is written. -/
def IsHostText (kind : Kind) (s : List Char) : Prop :=
  (∃ groups, Ipv6.IsAddress groups ∧ s = Ipv6.text groups) ∨ IsNameText kind s

/-- A character of an address in brackets. -/
def isGroupChar (c : Char) : Bool :=
  c = ':' || ('0' ≤ c && c ≤ '9') || ('a' ≤ c && c ≤ 'f')

theorem isGroupChar_of_mem_inner {groups : List Nat} {c : Char} (h : c ∈ Ipv6.inner groups) :
    isGroupChar c = true := by
  have hdigit : ∀ d < 16, isGroupChar (Nat.digitChar d) = true := by decide
  have hjoined {gs : List Nat} (h : c ∈ Ipv6.joined gs) : isGroupChar c = true := by
    rcases Text.mem_joinWith h with rfl | ⟨p, hp, hc⟩
    · rfl
    · obtain ⟨g, -, rfl⟩ := List.mem_map.mp hp
      obtain ⟨d, hd, rfl⟩ := Ipv6.exists_digitChar_of_mem_toDigits hc
      exact hdigit d hd
  simp only [Ipv6.inner] at h
  split at h
  · exact hjoined h
  · rcases List.mem_append.mp h with h | h
    · rcases List.mem_append.mp h with h | h
      · exact hjoined h
      · obtain rfl : c = ':' := by simpa using h
        rfl
    · exact hjoined h

theorem isGroupChar_spec {c : Char} (h : isGroupChar c = true) :
    isVisible c = true ∧ lower c = c ∧ c ≠ '/' ∧ c ≠ '[' ∧ c ≠ ']' ∧ c ≠ '?' ∧ c ≠ '#' ∧ c ≠ '\\' ∧
      c ≠ '@' := by
  have hascii : c.toNat < 0x80 := by
    simp only [isGroupChar, Bool.or_eq_true, Bool.and_eq_true, decide_eq_true_eq, toNat_le_iff] at h
    rcases h with (rfl | ⟨-, h⟩) | ⟨-, h⟩
    · decide
    · exact Nat.lt_of_le_of_lt h (by decide)
    · exact Nat.lt_of_le_of_lt h (by decide)
  have hspec := of_ascii (q := fun c ↦ isVisible c && lower c = c && c ≠ '/' && c ≠ '[' && c ≠ ']' &&
    c ≠ '?' && c ≠ '#' && c ≠ '\\' && c ≠ '@') (by decide +kernel) hascii h
  simpa [and_assoc] using hspec

theorem map_lower_text_ipv6 (groups : List Nat) :
    (Ipv6.text groups).map lower = Ipv6.text groups := by
  have hinner : (Ipv6.inner groups).map lower = Ipv6.inner groups :=
    (List.map_congr_left fun c hc ↦ (isGroupChar_spec (isGroupChar_of_mem_inner hc)).2.1).trans
      (List.map_id _)
  have hopen : lower '[' = '[' := by decide
  have hclose : lower ']' = ']' := by decide
  simp [Ipv6.text_eq, hinner, hopen, hclose]

theorem mem_text_ipv4 {address : Nat} {c : Char} (h : c ∈ Ipv4.text address) :
    c = '.' ∨ c.isDigit = true := by
  rw [Ipv4.text_eq] at h
  rcases Text.mem_joinWith h with rfl | ⟨p, hp, hc⟩
  · exact Or.inl rfl
  · obtain ⟨b, -, rfl⟩ := List.mem_map.mp hp
    exact Or.inr (Nat.isDigit_of_mem_toDigits (by decide) (by decide) hc)

theorem spec_of_mem_text_ipv4 {address : Nat} {c : Char} (h : c ∈ Ipv4.text address) :
    isHostChar c = true ∧ c ≠ '%' ∧ lower c = c := by
  have hchar : (c = '.' || c.isDigit) = true := by simpa using mem_text_ipv4 h
  have hascii : c.toNat < 0x80 := by
    rcases mem_text_ipv4 h with rfl | h
    · decide
    · exact Nat.lt_of_le_of_lt (Char.isDigit_iff_toNat.mp h).2 (by decide)
  have hspec := of_ascii (p := fun c ↦ c = '.' || c.isDigit)
    (q := fun c ↦ isHostChar c && c ≠ '%' && lower c = c) (by decide +kernel) hascii hchar
  simpa [and_assoc] using hspec

theorem map_lower_text_ipv4 (address : Nat) : (Ipv4.text address).map lower = Ipv4.text address :=
  (List.map_congr_left fun _ hc ↦ (spec_of_mem_text_ipv4 hc).2.2).trans (List.map_id _)

theorem isNameText_ipv4 (kind : Kind) (address : Nat) : IsNameText kind (Ipv4.text address) where
  ne_nil h := by simp [Ipv4.text] at h
  chars c hc := (spec_of_mem_text_ipv4 hc).1
  percent _ hc := (spec_of_mem_text_ipv4 hc).2.1 rfl
  number _ _ := ⟨address, rfl⟩

/-! ### How a host is written -/

theorem isHostText_of_bracketHost (h : bracketHost cs = .ok host) : IsHostText kind host.text := by
  simp only [bracketHost] at h
  split at h
  · split at h
    · rename_i groups hparse
      obtain rfl := Except.ok.inj h
      exact Or.inl ⟨groups, Ipv6.isAddress_of_parse? hparse, rfl⟩
    · cases h
  · cases h

theorem isHostChar_of_not_isForbidden {c : Char} (hascii : c.toNat < 0x80)
    (h : Domain.isForbidden c = false) : isHostChar c = true ∧ c ≠ '%' := by
  have hspec := of_ascii (p := fun c ↦ !Domain.isForbidden c) (q := fun c ↦ isHostChar c && c ≠ '%')
    (by decide +kernel) hascii (by simpa using h)
  simpa using hspec

theorem isHostText_of_namedHost (h : namedHost cs = .ok host) : IsHostText kind host.text := by
  simp only [namedHost] at h
  split at h
  · exact isHostText_of_bracketHost h
  · split at h
    · cases h
    · cases h
    · rename_i name hne hascii
      split at h
      · split at h
        · obtain rfl := Except.ok.inj h
          exact Or.inr (isNameText_ipv4 kind _)
        · cases h
      · rename_i hnumber
        obtain rfl := Except.ok.inj h
        obtain ⟨-, -, -, -, -, hforbidden⟩ := Domain.toAscii?_eq_some hascii
        have hchars (c : Char) (hc : c ∈ name) : isHostChar c = true ∧ c ≠ '%' :=
          isHostChar_of_not_isForbidden (Domain.toNat_lt_of_toAscii? hascii hc) (hforbidden c hc)
        exact Or.inr ⟨hne, fun c hc ↦ (hchars c hc).1, fun _ hc ↦ (hchars _ hc).2 rfl,
          fun _ hends ↦ absurd hends hnumber⟩

theorem isHostChar_of_foreign {c : Char} (hset : Percent.controlSet c = false)
    (hbad : isBadHostChar c = false) : isHostChar c = true := by
  have hascii : c.toNat < 0x80 := by
    simp only [Percent.controlSet, Bool.or_eq_false_iff, decide_eq_false_iff_not] at hset
    omega
  exact of_ascii (p := fun c ↦ !Percent.controlSet c && !isBadHostChar c) (by decide +kernel) hascii
    (by simp [hset, hbad])

theorem isHostText_of_foreignHost (hcs : cs ≠ []) (h : foreignHost cs = .ok host) :
    IsHostText .other host.text := by
  simp only [foreignHost] at h
  split at h
  · exact isHostText_of_bracketHost h
  · split at h
    · cases h
    · rename_i hbad
      obtain rfl := Except.ok.inj h
      refine Or.inr ⟨?_, fun c hc ↦ ?_, by simp, by simp⟩
      · obtain ⟨c, cs, rfl⟩ := List.exists_cons_of_ne_nil hcs
        exact Percent.encode_ne_nil (List.cons_ne_nil c cs)
      · rcases Percent.mem_encode hc with hcode | ⟨hset, hmem⟩
        · exact Percent.isHostChar_of_isCode hcode
        · refine isHostChar_of_foreign hset (Bool.eq_false_iff.mpr fun hbadc ↦ ?_)
          exact hbad (List.any_eq_true.mpr ⟨c, hmem, hbadc⟩)

/-- How a host that was read is written. -/
theorem isHostText_of_hostOf (hcs : cs ≠ []) (h : hostOf kind cs = .ok host) :
    IsHostText kind host.text := by
  simp only [hostOf] at h
  split at h
  · rename_i hkind
    subst hkind
    exact isHostText_of_foreignHost hcs h
  · exact isHostText_of_namedHost h

/-- A host may be written in lower case. -/
theorem IsHostText.lower (h : IsHostText kind s) : IsHostText kind (s.map lower) := by
  rcases h with ⟨groups, hgroups, rfl⟩ | h
  · exact Or.inl ⟨groups, hgroups, map_lower_text_ipv6 groups⟩
  · refine Or.inr ⟨by simpa using h.ne_nil, fun c hc ↦ ?_, fun hkind hc ↦ ?_, fun hkind hends ↦ ?_⟩
    · obtain ⟨d, hd, rfl⟩ := List.mem_map.mp hc
      exact isHostChar_lower (h.chars d hd)
    · obtain ⟨d, hd, hlower⟩ := List.mem_map.mp hc
      obtain rfl : d = '%' := (lower_eq_iff (by decide)).mp hlower
      exact h.percent hkind hd
    · rw [Ipv4.endsInNumber_lower] at hends
      obtain ⟨address, rfl⟩ := h.number hkind hends
      exact ⟨address, map_lower_text_ipv4 address⟩

/-! ### Hosts that are read again -/

theorem IsNameText.head?_ne (h : IsNameText kind s) : s.head? ≠ some '[' := by
  intro hhead
  have hopen := h.chars '[' (List.mem_of_mem_head? hhead)
  cases hopen

theorem text_of_bracketHost {groups : List Nat} (hgroups : Ipv6.IsAddress groups)
    (h : bracketHost (Ipv6.text groups) = .ok host) : host.text = Ipv6.text groups := by
  have hinner : ((Ipv6.text groups).drop 1).dropLast = Ipv6.inner groups := by
    simp [Ipv6.text_eq]
  have hlast : (Ipv6.text groups).getLast? = some ']' := by
    rw [Ipv6.text_eq, ← List.cons_append, List.getLast?_concat]
  rw [bracketHost, if_pos hlast, hinner, Ipv6.parse?_inner hgroups] at h
  obtain rfl := Except.ok.inj h
  rfl

theorem isSmall_of_isHostChar {c : Char} (h : isHostChar c = true) (hlower : Url.lower c = c) :
    Domain.isSmall c = true := by
  refine of_ascii (p := fun c ↦ isHostChar c && Url.lower c = c) (by decide +kernel)
    (toNat_lt_of_isVisible (isVisible_of_isHostChar h)) ?_
  simp [h, hlower]

theorem text_of_namedHost (hkind : kind ≠ .other) (hs : IsNameText kind s) (hlower : s.map lower = s)
    (h : namedHost s = .ok host) : host.text = s := by
  have hsmall : ∀ c ∈ s, Domain.isSmall c = true := fun c hc ↦
    isSmall_of_isHostChar (hs.chars c hc) (List.map_inj_left.mp (hlower.trans (List.map_id s).symm) c hc)
  rw [namedHost, if_neg hs.head?_ne, Percent.decode_of_notMem (hs.percent hkind)] at h
  split at h
  · cases h
  · cases h
  · rename_i name _ hascii
    obtain rfl : name = s := Domain.eq_of_toAscii? hascii hsmall
    split at h
    · rename_i hends
      obtain ⟨address, rfl⟩ := hs.number hkind hends
      rw [Ipv4.parse?_text] at h
      obtain rfl := Except.ok.inj h
      exact Ipv4.text_mod address
    · obtain rfl := Except.ok.inj h
      rfl

theorem text_of_foreignHost (hs : IsNameText .other s) (h : foreignHost s = .ok host) :
    host.text = s := by
  have hnone : ∀ c ∈ s, Percent.controlSet c = false := fun c hc ↦ by
    have hvisible := isVisible_iff.mp (isVisible_of_isHostChar (hs.chars c hc))
    simp only [Percent.controlSet, Bool.or_eq_false_iff, decide_eq_false_iff_not]
    omega
  rw [foreignHost, if_neg hs.head?_ne] at h
  split at h
  · cases h
  · obtain rfl := Except.ok.inj h
    exact Percent.encode_of_none hnone

/-- A host in lower case is read as it is written. -/
theorem text_of_hostOf (hs : IsHostText kind s) (hlower : s.map lower = s)
    (h : hostOf kind s = .ok host) : host.text = s := by
  rcases hs with ⟨groups, hgroups, rfl⟩ | hs
  · have hopen : (Ipv6.text groups).head? = some '[' := rfl
    refine text_of_bracketHost hgroups ?_
    simpa [hostOf, foreignHost, namedHost, hopen] using h
  · rw [hostOf] at h
    split at h
    · rename_i hkind
      subst hkind
      exact text_of_foreignHost hs h
    · rename_i hkind
      exact text_of_namedHost hkind hs hlower h

end Url

end CodeNav
