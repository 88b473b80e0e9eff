import CodeNav.Text.Letters
import CodeNav.Url.Parser
import CodeNav.Repository.Key
import Mathlib.Data.List.Basic

/-!
# The characters of addresses

An address is written in visible characters of ASCII only: whatever else belongs to a part of it is
encoded. So nothing is trimmed from an address that is written out, and nothing in it is encoded a
second time.

## Main definitions

* `Url.isVisible`: the visible characters of ASCII
* `Url.isHostChar`: the characters of host names
* `Percent.isCode`: the characters that encoded ones are written with

## Main statements

* `Url.clean_of_visible`, `Text.trim_of_visible`: nothing is trimmed from visible characters
* `Percent.mem_encode`: what an encoded text is made of
* `Percent.encode_of_none`: where nothing is to be encoded
-/

namespace CodeNav

/-- What follows of a character of ASCII can be seen from all of them. -/
theorem of_ascii {p q : Char → Bool} (h : ∀ n < 0x80, p (Char.ofNat n) = true → q (Char.ofNat n) = true)
    {c : Char} (hc : c.toNat < 0x80) (hp : p c = true) : q c = true := by
  have hchar := h c.toNat hc
  rw [Char.ofNat_toNat] at hchar
  exact hchar hp

theorem toNat_le_iff {a b : Char} : a ≤ b ↔ a.toNat ≤ b.toNat := Iff.rfl

/-! ### Visible characters -/

namespace Url

variable {c : Char} {cs : List Char}

/-- A visible character of ASCII. -/
def isVisible (c : Char) : Bool :=
  0x20 < c.toNat && c.toNat < 0x7F

/-- A character that the name of a host may have. -/
def isHostChar (c : Char) : Bool :=
  isVisible c && !Percent.isOneOf ['#', '/', ':', '<', '>', '?', '@', '[', '\\', ']', '^', '|'] c

theorem isVisible_iff : isVisible c = true ↔ 0x20 < c.toNat ∧ c.toNat < 0x7F := by
  simp [isVisible]

theorem isVisible_of_isHostChar (h : isHostChar c = true) : isVisible c = true :=
  (Bool.and_eq_true_iff.mp h).1

theorem toNat_lt_of_isVisible (h : isVisible c = true) : c.toNat < 0x80 :=
  Nat.lt_succ_of_lt (isVisible_iff.mp h).2

theorem isHostChar_lower (h : isHostChar c = true) : isHostChar (lower c) = true :=
  of_ascii (q := fun c ↦ isHostChar (lower c)) (by decide +kernel)
    (toNat_lt_of_isVisible (isVisible_of_isHostChar h)) h

theorem isVisible_of_pathSet (h : Percent.pathSet c = false) : isVisible c = true := by
  rw [isVisible_iff]
  simp only [Percent.pathSet, Percent.fragmentSet, Percent.controlSet, Bool.or_eq_false_iff,
    decide_eq_false_iff_not] at h
  have hblank : c ≠ ' ' := by
    rintro rfl
    simp [Percent.isOneOf] at h
  have hne : c.toNat ≠ 0x20 := fun heq ↦ hblank (Char.toNat_inj.mp heq)
  omega

theorem isBlank_of_isVisible (h : isVisible c = true) : Text.isBlank c = false :=
  Bool.not_eq_true' _ ▸ of_ascii (q := fun c ↦ !Text.isBlank c) (by decide +kernel)
    (toNat_lt_of_isVisible h) h

end Url

/-- Nothing is trimmed from visible characters. -/
theorem Text.trim_of_visible {cs : List Char} (h : ∀ c ∈ cs, Url.isVisible c = true) :
    Text.trim cs = cs := by
  have hkeep : ∀ {cs : List Char}, (∀ c ∈ cs, Url.isVisible c = true) →
      cs.dropWhile Text.isBlank = cs := by
    intro cs h
    cases cs with
    | nil => rfl
    | cons c cs => simp [Url.isBlank_of_isVisible (h c List.mem_cons_self)]
  rw [trim, trimEnd, trimStart, hkeep h, hkeep fun c hc ↦ h c (List.mem_reverse.mp hc),
    List.reverse_reverse]

namespace Url

variable {c : Char} {cs : List Char}

/-- Nothing is left out of visible characters. -/
theorem clean_of_visible (h : ∀ c ∈ cs, isVisible c = true) : clean cs = cs := by
  have hkeep : ∀ {cs : List Char}, (∀ c ∈ cs, isVisible c = true) →
      cs.dropWhile (fun c ↦ decide (c.toNat ≤ 0x20)) = cs := by
    intro cs h
    cases cs with
    | nil => rfl
    | cons c cs =>
      have hc := (isVisible_iff.mp (h c List.mem_cons_self)).1
      exact List.dropWhile_cons_of_neg (by simpa using hc)
  have hfilter : ∀ c ∈ cs, (c ≠ '\t' && c ≠ '\n' && c ≠ '\r') = true := by
    intro c hc
    have hc := h c hc
    simp only [ne_eq, Bool.and_eq_true, decide_eq_true_eq]
    refine ⟨⟨?_, ?_⟩, ?_⟩ <;> rintro rfl <;> cases hc
  rw [clean, hkeep h, hkeep fun c hc ↦ h c (List.mem_reverse.mp hc), List.reverse_reverse,
    List.filter_eq_self.mpr hfilter]

end Url

/-! ### Encoded characters -/

namespace Percent

variable {set : Char → Bool} {c : Char} {cs : List Char}

/-- A character that encoded ones are written with. -/
def isCode (c : Char) : Bool :=
  c = '%' || ('0' ≤ c && c ≤ '9') || ('A' ≤ c && c ≤ 'F')

theorem isCode_of_mem_encodeByte {b : UInt8} (h : c ∈ encodeByte b) : isCode c = true := by
  have hall : ∀ n < 16, isCode (upperHex n) = true := by decide
  have hb := b.toNat_lt
  simp only [encodeByte, List.mem_cons, List.not_mem_nil, or_false] at h
  rcases h with rfl | rfl | rfl
  · rfl
  · exact hall _ (by omega)
  · exact hall _ (Nat.mod_lt _ (by decide))

/-- What an encoded text is made of. -/
theorem mem_encode (h : c ∈ encode set cs) : isCode c = true ∨ set c = false ∧ c ∈ cs := by
  obtain ⟨d, hd, hc⟩ := List.mem_flatMap.mp h
  rw [encodeChar] at hc
  split at hc
  · obtain ⟨b, -, hc⟩ := List.mem_flatMap.mp hc
    exact Or.inl (isCode_of_mem_encodeByte hc)
  · rename_i hset
    obtain rfl := List.mem_singleton.mp hc
    exact Or.inr ⟨Bool.not_eq_true _ ▸ hset, hd⟩

/-- Where nothing is to be encoded, nothing is. -/
theorem encode_of_none (h : ∀ c ∈ cs, set c = false) : encode set cs = cs := by
  induction cs with
  | nil => rfl
  | cons c cs ih =>
    have hc : set c = false := h c List.mem_cons_self
    have ih : encode set cs = cs := ih fun d hd ↦ h d (List.mem_cons_of_mem _ hd)
    have hencode : encode set (c :: cs) = encodeChar set c ++ encode set cs := rfl
    rw [hencode, ih, encodeChar, if_neg (by simp [hc])]
    rfl

theorem encode_ne_nil (h : cs ≠ []) : encode set cs ≠ [] := by
  obtain ⟨c, cs, rfl⟩ := List.exists_cons_of_ne_nil h
  have hbytes : String.utf8EncodeChar c ≠ [] := String.utf8EncodeChar_ne_nil
  obtain ⟨b, bs, hbytes⟩ := List.exists_cons_of_ne_nil hbytes
  rw [encode, List.flatMap_cons, encodeChar]
  split <;> simp [hbytes, encodeByte]

theorem toNat_lt_of_isCode (h : isCode c = true) : c.toNat < 0x80 := by
  simp only [isCode, Bool.or_eq_true, Bool.and_eq_true, decide_eq_true_eq, toNat_le_iff] at h
  rcases h with (rfl | ⟨-, h⟩) | ⟨-, h⟩
  · decide
  · exact Nat.lt_of_le_of_lt h (by decide)
  · exact Nat.lt_of_le_of_lt h (by decide)

theorem isHostChar_of_isCode (h : isCode c = true) : Url.isHostChar c = true :=
  of_ascii (by decide +kernel) (toNat_lt_of_isCode h) h

theorem userinfoSet_of_isCode (h : isCode c = true) : userinfoSet c = false :=
  Bool.not_eq_true' _ ▸ of_ascii (q := fun c ↦ !userinfoSet c) (by decide +kernel)
    (toNat_lt_of_isCode h) h

theorem pathSet_of_isCode (h : isCode c = true) : pathSet c = false :=
  Bool.not_eq_true' _ ▸ of_ascii (q := fun c ↦ !pathSet c) (by decide +kernel)
    (toNat_lt_of_isCode h) h

end Percent

end CodeNav
