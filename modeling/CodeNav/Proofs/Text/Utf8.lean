import CodeNav.Text.Utf8
import Mathlib.Data.String.Basic

/-!
# Text and its bytes

Text is read back from its bytes. Bytes keep the order of characters: that of two texts is the order of
their bytes, since a character with a smaller number has smaller bytes, and none begins with another. Where
bytes may be no text, those of a character belong together, whatever follows them.

## Main statements

* `Text.fromUTF8?_toUTF8`, `Text.utf8Text?_utf8Bytes`: bytes of a text are read as the text
* `Text.fromUTF8?_eq_some_iff`, `Text.utf8Text?_eq_some_iff`: only these are
* `Text.mem_utf8Bytes_iff`: which ASCII characters are in a text
* `Text.leadingUnit_utf8EncodeChar`, `Text.codePoint_utf8EncodeChar`: the bytes of one character
* `Text.utf8Bytes_lt_iff`, `Text.lt_iff_toUTF8_lt`: texts have the order of their bytes
-/

namespace CodeNav.Text

variable {c d : Char} {cs ds : List Char} {a b b₃ b₄ : UInt8} {rest : List UInt8}

/-! ### Reading bytes -/

theorem fromUTF8?_toUTF8 (s : String) : String.fromUTF8? s.toUTF8 = some s := by
  have hvalid : s.toUTF8.IsValidUTF8 := s.isValidUTF8
  rw [String.fromUTF8?, dif_pos hvalid]
  rfl

/-- Only the bytes of a text are read as the text. -/
theorem fromUTF8?_eq_some_iff {bytes : ByteArray} {s : String} :
    String.fromUTF8? bytes = some s ↔ bytes = s.toUTF8 := by
  constructor
  · intro h
    rw [String.fromUTF8?] at h
    split at h
    · obtain rfl := Option.some.inj h
      rfl
    · cases h
  · rintro rfl
    exact fromUTF8?_toUTF8 s

theorem toUTF8_ofList (cs : List Char) : (String.ofList cs).toUTF8 = ⟨(utf8Bytes cs).toArray⟩ :=
  String.toByteArray_ofList.trans (ByteArray.ext List.data_toByteArray)

/-- The bytes of a text are text. -/
theorem utf8Text?_utf8Bytes (cs : List Char) : utf8Text? (utf8Bytes cs) = some (String.ofList cs) := by
  rw [utf8Text?, ← toUTF8_ofList, fromUTF8?_toUTF8]

/-- Bytes that are text are the bytes of the text. -/
theorem utf8Text?_eq_some_iff {bytes : List UInt8} {s : String} :
    utf8Text? bytes = some s ↔ bytes = utf8Bytes s.toList := by
  have hs : s.toUTF8 = ⟨(utf8Bytes s.toList).toArray⟩ := by
    rw [← toUTF8_ofList, String.ofList_toList]
  rw [utf8Text?, fromUTF8?_eq_some_iff, hs]
  exact ⟨fun h ↦ congrArg (·.data.toList) h, fun h ↦ h ▸ rfl⟩

theorem toList_toUTF8 (s : String) : s.toUTF8.data.toList = utf8Bytes s.toList := by
  conv_lhs => rw [← String.ofList_toList (s := s), toUTF8_ofList]

@[simp]
theorem utf8Bytes_nil : utf8Bytes [] = [] := rfl

theorem utf8Bytes_cons (c : Char) (cs : List Char) :
    utf8Bytes (c :: cs) = String.utf8EncodeChar c ++ utf8Bytes cs :=
  List.flatMap_cons

@[simp]
theorem utf8Bytes_append (cs ds : List Char) : utf8Bytes (cs ++ ds) = utf8Bytes cs ++ utf8Bytes ds :=
  List.flatMap_append

/-- The byte of an ASCII character among the bytes of a text is the character in the text. -/
theorem mem_utf8Bytes_iff (h : c.toNat < 0x80) : UInt8.ofNat c.toNat ∈ utf8Bytes cs ↔ c ∈ cs := by
  have hchar (d : Char) : UInt8.ofNat c.toNat ∈ String.utf8EncodeChar d ↔ d = c := by
    have hbound : d.val.toNat < 0x110000 := by
      have := d.valid
      simp only [UInt32.isValidChar, Nat.isValidChar] at this
      omega
    have heq : d = c ↔ d.val.toNat = c.toNat := Char.toNat_inj.symm
    rw [heq]
    simp only [String.utf8EncodeChar]
    split_ifs <;>
      simp only [List.mem_cons, List.not_mem_nil, or_false, ← UInt8.toNat_inj, UInt8.toNat_ofNat'] <;> omega
  simp [utf8Bytes, List.mem_flatMap, hchar]

/-! ### Order -/

/-- The bytes of a character are before those of a later one, whatever follows them. -/
theorem utf8EncodeChar_lt (h : c < d) (x y : List UInt8) :
    String.utf8EncodeChar c ++ x < String.utf8EncodeChar d ++ y := by
  have hlt : c.val.toNat < d.val.toNat := UInt32.lt_iff_toNat_lt.mp h
  have hbound : d.val.toNat < 0x110000 := by
    have := d.valid
    simp only [UInt32.isValidChar, Nat.isValidChar] at this
    omega
  -- The digits of both numbers in base 64, the last ones first.
  have h12 (n : Nat) : n / 4096 = n / 64 / 64 := by omega
  have h18 (n : Nat) : n / 262144 = n / 64 / 64 / 64 := by omega
  simp only [String.utf8EncodeChar, h12, h18]
  split_ifs <;>
    simp only [List.cons_append, List.nil_append, List.cons_lt_cons_iff, UInt8.lt_iff_toNat_lt,
      ← UInt8.toNat_inj, UInt8.toNat_ofNat'] <;> omega

theorem utf8Bytes_lt (h : cs < ds) : utf8Bytes cs < utf8Bytes ds := by
  induction cs generalizing ds with
  | nil =>
    cases ds with
    | nil => exact absurd h (List.lt_irrefl _)
    | cons d ds =>
      obtain ⟨b, bs, hbs⟩ := List.exists_cons_of_ne_nil (String.utf8EncodeChar_ne_nil (c := d))
      rw [utf8Bytes_cons, hbs]
      exact List.nil_lt_cons _ _
  | cons c cs ih =>
    cases ds with
    | nil => exact absurd h (List.not_lt_nil _)
    | cons d ds =>
      rw [utf8Bytes_cons, utf8Bytes_cons]
      rcases List.cons_lt_cons_iff.mp h with hcd | ⟨rfl, hrest⟩
      · exact utf8EncodeChar_lt hcd _ _
      · exact List.append_left_lt (ih hrest)

/-- Texts have the order of their bytes. -/
theorem utf8Bytes_lt_iff : utf8Bytes cs < utf8Bytes ds ↔ cs < ds := by
  refine ⟨fun h ↦ ?_, utf8Bytes_lt⟩
  rcases lt_trichotomy cs ds with hlt | rfl | hgt
  · exact hlt
  · exact absurd h (List.lt_irrefl _)
  · exact absurd (List.lt_trans h (utf8Bytes_lt hgt)) (List.lt_irrefl _)

theorem lt_iff_toUTF8_lt (s t : String) :
    s < t ↔ s.toUTF8.data.toList < t.toUTF8.data.toList := by
  rw [toList_toUTF8, toList_toUTF8, utf8Bytes_lt_iff, String.lt_iff_toList_lt]

/-! ### Characters -/

theorem val_bounds (c : Char) : c.toNat < 0x110000 ∧ (c.toNat < 0xd800 ∨ 0xdfff < c.toNat) := by
  have := c.valid
  simp only [UInt32.isValidChar, Nat.isValidChar, Char.toNat] at this ⊢
  omega

/-- The number of a character from its digits in base 64. -/
theorem codePoint_utf8EncodeChar (c : Char) : codePoint (String.utf8EncodeChar c) = c.toNat := by
  obtain ⟨hmax, -⟩ := val_bounds c
  have h12 (n : Nat) : n / 4096 = n / 64 / 64 := by omega
  have h18 (n : Nat) : n / 262144 = n / 64 / 64 / 64 := by omega
  have hbyte (n k : Nat) (h : n + k < 256) : (UInt8.ofNat (n + k)).toNat - k = n := by
    rw [UInt8.toNat_ofNat_of_lt' h, Nat.add_sub_cancel]
  simp only [String.utf8EncodeChar, Char.toNat, h12, h18] at hmax ⊢
  generalize c.val.toNat = n at hmax ⊢
  split_ifs with h1 h2 h3 <;> unfold codePoint
  · exact UInt8.toNat_ofNat_of_lt' (Nat.lt_of_le_of_lt h1 (by decide))
  · dsimp only
    rw [hbyte _ 0xc0 (by omega), hbyte _ 0x80 (by omega)]
    omega
  · dsimp only
    rw [hbyte _ 0xe0 (by omega), hbyte _ 0x80 (by omega), hbyte _ 0x80 (by omega)]
    omega
  · dsimp only
    rw [hbyte _ 0xf0 (by omega), hbyte _ 0x80 (by omega), hbyte _ 0x80 (by omega), hbyte _ 0x80 (by omega)]
    omega

/-- A byte that continues a character. -/
theorem isContinuation_iff : isContinuation b = true ↔ 0x80 ≤ b.toNat ∧ b.toNat ≤ 0xBF := by
  rw [isContinuation, Bool.and_eq_true, decide_eq_true_iff, decide_eq_true_iff, UInt8.le_iff_toNat_le,
    UInt8.le_iff_toNat_le]
  rfl

theorem leadingUnit_one (ha : a.toNat < 0x80) : leadingUnit (a :: rest) = (1, true) :=
  if_pos (UInt8.lt_iff_toNat_lt.mpr ha)

theorem leadingUnit_two (hshape : leadShape? a = some (0x80, 0xBF, 1)) (ha : ¬ a < 0x80)
    (hb : isContinuation b = true) : leadingUnit (a :: b :: rest) = (2, true) := by
  simp only [leadingUnit, if_neg ha, hshape]
  simp only [isContinuation] at hb
  simp [hb]

theorem leadingUnit_three {low high : UInt8} (hshape : leadShape? a = some (low, high, 2))
    (ha : ¬ a < 0x80) (hb : (low ≤ b && b ≤ high) = true) (hd : isContinuation b₃ = true) :
    leadingUnit (a :: b :: b₃ :: rest) = (3, true) := by
  simp only [leadingUnit, if_neg ha, hshape]
  simp [hb, hd]

theorem leadingUnit_four {low high : UInt8} (hshape : leadShape? a = some (low, high, 3))
    (ha : ¬ a < 0x80) (hb : (low ≤ b && b ≤ high) = true) (hd : isContinuation b₃ = true)
    (he : isContinuation b₄ = true) : leadingUnit (a :: b :: b₃ :: b₄ :: rest) = (4, true) := by
  simp only [leadingUnit, if_neg ha, hshape]
  simp [hb, hd, he]

/-- The range of the second byte by the number of the first one. -/
theorem leadShape?_ofNat {n : Nat} (hn : n < 256) : leadShape? (UInt8.ofNat n) =
    if 0xC2 ≤ n ∧ n ≤ 0xDF then some (0x80, 0xBF, 1)
    else if n = 0xE0 then some (0xA0, 0xBF, 2)
    else if n = 0xED then some (0x80, 0x9F, 2)
    else if 0xE1 ≤ n ∧ n ≤ 0xEF then some (0x80, 0xBF, 2)
    else if n = 0xF0 then some (0x90, 0xBF, 3)
    else if n = 0xF4 then some (0x80, 0x8F, 3)
    else if 0xF1 ≤ n ∧ n ≤ 0xF3 then some (0x80, 0xBF, 3)
    else none := by
  simp only [leadShape?, Bool.and_eq_true, decide_eq_true_iff, UInt8.le_iff_toNat_le, ← UInt8.toNat_inj,
    UInt8.toNat_ofNat_of_lt' hn]
  rfl

/-- The bytes of a character belong together. -/
theorem leadingUnit_utf8EncodeChar (c : Char) (rest : List UInt8) :
    leadingUnit (String.utf8EncodeChar c ++ rest) = ((String.utf8EncodeChar c).length, true) := by
  obtain ⟨hmax, hsurrogate⟩ := val_bounds c
  have hnot {n : Nat} (hn : n < 256) (h : 0x80 ≤ n) : ¬ UInt8.ofNat n < 0x80 := by
    rw [UInt8.lt_iff_toNat_lt, UInt8.toNat_ofNat_of_lt' hn]
    exact Nat.not_lt.mpr h
  have hcont (n : Nat) : isContinuation (UInt8.ofNat (n % 64 + 0x80)) = true := by
    rw [isContinuation_iff, UInt8.toNat_ofNat']
    omega
  have hrange {n : Nat} (hn : n < 256) (low high : UInt8) (h : low.toNat ≤ n ∧ n ≤ high.toNat) :
      (low ≤ UInt8.ofNat n && UInt8.ofNat n ≤ high) = true := by
    simp only [Bool.and_eq_true, decide_eq_true_iff, UInt8.le_iff_toNat_le, UInt8.toNat_ofNat_of_lt' hn]
    exact h
  simp only [String.utf8EncodeChar, Char.toNat] at hmax hsurrogate ⊢
  generalize c.val.toNat = n at hmax hsurrogate ⊢
  split_ifs with h1 h2 h3
  · exact leadingUnit_one (by rw [UInt8.toNat_ofNat']; omega)
  · refine leadingUnit_two ?_ (hnot (by omega) (by omega)) (hcont _)
    rw [leadShape?_ofNat (by omega), if_pos (by omega)]
  · have hshape := leadShape?_ofNat (show n / 4096 % 16 + 0xe0 < 256 by omega)
    rw [if_neg (by omega)] at hshape
    have hsecond : n / 64 % 64 + 0x80 < 256 := by omega
    by_cases hE0 : n / 4096 % 16 + 0xe0 = 0xE0
    · rw [if_pos hE0] at hshape
      exact leadingUnit_three hshape (hnot (by omega) (by omega))
        (hrange hsecond 0xA0 0xBF ⟨by change 0xA0 ≤ _; omega, by change _ ≤ 0xBF; omega⟩) (hcont _)
    · rw [if_neg hE0] at hshape
      by_cases hED : n / 4096 % 16 + 0xe0 = 0xED
      · rw [if_pos hED] at hshape
        exact leadingUnit_three hshape (hnot (by omega) (by omega))
          (hrange hsecond 0x80 0x9F ⟨by change 0x80 ≤ _; omega, by change _ ≤ 0x9F; omega⟩) (hcont _)
      · rw [if_neg hED, if_pos (by omega)] at hshape
        exact leadingUnit_three hshape (hnot (by omega) (by omega)) (hcont _) (hcont _)
  · have hshape := leadShape?_ofNat (show n / 262144 % 8 + 0xf0 < 256 by omega)
    rw [if_neg (by omega), if_neg (by omega), if_neg (by omega), if_neg (by omega)] at hshape
    have hsecond : n / 4096 % 64 + 0x80 < 256 := by omega
    by_cases hF0 : n / 262144 % 8 + 0xf0 = 0xF0
    · rw [if_pos hF0] at hshape
      exact leadingUnit_four hshape (hnot (by omega) (by omega))
        (hrange hsecond 0x90 0xBF ⟨by change 0x90 ≤ _; omega, by change _ ≤ 0xBF; omega⟩) (hcont _) (hcont _)
    · rw [if_neg hF0] at hshape
      by_cases hF4 : n / 262144 % 8 + 0xf0 = 0xF4
      · rw [if_pos hF4] at hshape
        exact leadingUnit_four hshape (hnot (by omega) (by omega))
          (hrange hsecond 0x80 0x8F ⟨by change 0x80 ≤ _; omega, by change _ ≤ 0x8F; omega⟩) (hcont _) (hcont _)
      · rw [if_neg hF4, if_pos (by omega)] at hshape
        exact leadingUnit_four hshape (hnot (by omega) (by omega)) (hcont _) (hcont _) (hcont _)

end CodeNav.Text
