import CodeNav.Json.Parser
import CodeNav.Json.Printer
import CodeNav.Proofs.Text.Utf8
import Mathlib.Data.Nat.Digits.Defs
import Mathlib.Data.String.Basic

/-!
# Reading what was written

The compact text of a value is read as that value. Numbers are read as far as their digits go, so what
follows a number must not go on with it; strings and brackets end by themselves. A value is nested as deep
as its text, and the reader allows a fixed depth. Members are written in the order of their keys, and
sorting them again changes nothing.

## Main definitions

* `Json.EndsNumber`: a text that no number goes on with
* `Json.inList`: texts with commas between them

## Main statements

* `Json.stringBody_quoteChars`: a quoted string is read as the string
* `Json.valueWith_intChars`: an integer is read from its digits
* `Json.valueWith_compactChars`: a value at the beginning of a text
* `Json.read_compactChars`: the text of a value holds the value
* `Json.ofBytes?_compact`: the bytes of a written value are read as the value
-/

namespace CodeNav.Json

variable {fuel d : Nat} {first : Bool} {c : Char} {cs rest : List Char}

/-! ### Blanks -/

theorem dropSpaces_cons (h : isSpace c = false) (cs : List Char) : dropSpaces (c :: cs) = c :: cs := by
  simp [dropSpaces, h]

/-! ### Integers -/

/-- A number does not go on in a text. -/
def EndsNumber (rest : List Char) : Prop :=
  ∀ c ∈ rest.head?, digit? c = none ∧ c ≠ '.' ∧ c ≠ 'e' ∧ c ≠ 'E'

theorem endsNumber_nil : EndsNumber [] := by simp [EndsNumber]

theorem endsNumber_cons (h : digit? c = none ∧ c ≠ '.' ∧ c ≠ 'e' ∧ c ≠ 'E') (cs : List Char) :
    EndsNumber (c :: cs) := by
  intro a ha
  obtain rfl : c = a := Option.some.inj ha
  exact h

theorem digit?_of_isDigit (h : c.isDigit = true) : digit? c = some (c.toNat - '0'.toNat) := by
  simp only [Char.isDigit, Bool.and_eq_true, decide_eq_true_eq] at h
  exact if_pos h

theorem isSpace_of_isDigit (h : c.isDigit = true) : isSpace c = false := by
  by_contra hspace
  simp only [isSpace, Bool.not_eq_false, Bool.or_eq_true, decide_eq_true_eq] at hspace
  rcases hspace with ((rfl | rfl) | rfl) | rfl <;> cases h

/-- More digits make no smaller number. -/
theorem le_ofDigitChars (cs : List Char) (n : Nat) : n ≤ Nat.ofDigitChars 10 cs n := by
  induction cs generalizing n with
  | nil => exact Nat.le_refl n
  | cons c cs ih =>
    have h := ih (10 * n + (c.toNat - '0'.toNat))
    simp only [Nat.ofDigitChars, List.foldl_cons] at h ⊢
    omega

theorem afterInteger_of_endsNumber (h : EndsNumber rest) (negative : Bool) (n : Nat) :
    afterInteger negative n rest = integer negative n rest := by
  cases rest with
  | nil => rfl
  | cons c cs =>
    obtain ⟨-, hdot, he, hE⟩ := h c rfl
    simp [afterInteger, hdot, he, hE]

/-- Digits are read up to where the number ends. -/
theorem integerDigits_append (negative : Bool) (hcs : ∀ c ∈ cs, c.isDigit = true) {n : Nat}
    (hfits : Nat.ofDigitChars 10 cs n ≤ maxSignificand) (hrest : EndsNumber rest) :
    integerDigits negative n (cs ++ rest) = integer negative (Nat.ofDigitChars 10 cs n) rest := by
  induction cs generalizing n with
  | nil =>
    cases rest with
    | nil => rfl
    | cons c cs =>
      simp only [List.nil_append, integerDigits, (hrest c rfl).1]
      exact afterInteger_of_endsNumber hrest negative n
  | cons c cs ih =>
    have hdigit := digit?_of_isDigit (hcs c List.mem_cons_self)
    have hstep : Nat.ofDigitChars 10 (c :: cs) n
        = Nat.ofDigitChars 10 cs (n * 10 + (c.toNat - '0'.toNat)) := by
      simp [Nat.ofDigitChars, Nat.mul_comm]
    rw [hstep] at hfits ⊢
    have hle := le_ofDigitChars cs (n * 10 + (c.toNat - '0'.toNat))
    simp only [List.cons_append, integerDigits, hdigit, if_neg (Nat.not_lt.mpr (hle.trans hfits))]
    exact ih (fun x hx ↦ hcs x (List.mem_cons_of_mem _ hx)) hfits

/-- The digits of a number that is not zero begin with another digit than zero. -/
theorem exists_toDigits_eq_cons {n : Nat} (hn : 0 < n) :
    ∃ c cs, Nat.toDigits 10 n = c :: cs ∧ c ≠ '0' := by
  induction n using Nat.strongRecOn with
  | ind n ih =>
    by_cases h : n < 10
    · refine ⟨n.digitChar, [], Nat.toDigits_of_lt_base h, ?_⟩
      have hall : ∀ m < 10, 0 < m → m.digitChar ≠ '0' := by decide
      exact hall n h hn
    · obtain ⟨c, cs, hcs, hc⟩ := ih (n / 10) (by omega) (by omega)
      exact ⟨c, cs ++ [(n % 10).digitChar],
        by rw [Nat.toDigits_of_base_le (by omega) (by omega), hcs]; rfl, hc⟩

/-- The digits of a number are read as the number. -/
theorem number_toDigits (negative : Bool) {n : Nat} (hn : n ≤ maxSignificand)
    (hrest : EndsNumber rest) :
    number negative (Nat.toDigits 10 n ++ rest) = integer negative n rest := by
  rcases Nat.eq_zero_or_pos n with rfl | hpos
  · cases rest with
    | nil => rfl
    | cons c cs =>
      have hlead : number negative ('0' :: c :: cs) = afterInteger negative 0 (c :: cs) := by
        simp [number, (hrest c rfl).1]
      exact hlead.trans (afterInteger_of_endsNumber hrest negative 0)
  · obtain ⟨c, cs, hcs, hc⟩ := exists_toDigits_eq_cons hpos
    have hdigits : ∀ x ∈ c :: cs, x.isDigit = true := fun x hx ↦
      Nat.isDigit_of_mem_toDigits (by omega) (by omega) (hcs ▸ hx)
    have hvalue : Nat.ofDigitChars 10 cs (c.toNat - '0'.toNat) = n := by
      have h := Nat.ofDigitChars_ten_toDigits (n := n)
      rw [hcs] at h
      simpa [Nat.ofDigitChars] using h
    have hstart : number negative (c :: (cs ++ rest))
        = integerDigits negative (c.toNat - '0'.toNat) (cs ++ rest) := by
      simp [number, digit?_of_isDigit (hdigits c List.mem_cons_self)]
    rw [hcs, List.cons_append, hstart, integerDigits_append negative
      (fun x hx ↦ hdigits x (List.mem_cons_of_mem _ hx)) (hvalue ▸ hn) hrest, hvalue]

/-! ### Strings -/

theorem hexValue?_hexDigit {n : Nat} (h : n < 16) : hexValue? (hexDigit n) = some n := by
  have hall : ∀ m < 16, hexValue? (hexDigit m) = some m := by decide
  exact hall n h

/-- The escape of a character by its number. -/
theorem unicodeEscape_hexDigits {n : Nat} (h : n < 0x20) (rest : List Char) :
    unicodeEscape ('0' :: '0' :: hexDigit (n / 16) :: hexDigit (n % 16) :: rest)
      = .ok (Char.ofNat n, rest) := by
  have hzero : hexValue? '0' = some 0 := rfl
  have hfour : fourHex ('0' :: '0' :: hexDigit (n / 16) :: hexDigit (n % 16) :: rest)
      = .ok (n, rest) := by
    simp only [fourHex, hzero, hexValue?_hexDigit (show n / 16 < 16 by omega),
      hexValue?_hexDigit (show n % 16 < 16 by omega), Except.ok.injEq, Prod.mk.injEq, and_true]
    omega
  have hlow : ¬ (0xDC00 ≤ n ∧ n ≤ 0xDFFF) := by omega
  have hplain : n < 0xD800 ∨ 0xDFFF < n := by omega
  simp only [unicodeEscape, hfour, bind, Except.bind, if_neg hlow, if_pos hplain]

/-- A character stands for itself in a string, or is written as an escape that is read as it. -/
theorem escape_cases (c : Char) :
    escape c = [c] ∧ c ≠ '"' ∧ c ≠ '\\' ∧ 0x20 ≤ c.toNat ∨
      ∃ e, escape c = '\\' :: e ∧ ∀ rest, escapeSequence (e ++ rest) = .ok (c, rest) := by
  have hofNat : Char.ofNat c.toNat = c := Char.ofNat_toNat c
  unfold escape
  split_ifs with hquote hback hplain h8 hC hA hD h9
  · exact .inr ⟨_, rfl, fun rest ↦ by rw [hquote]; rfl⟩
  · exact .inr ⟨_, rfl, fun rest ↦ by rw [hback]; rfl⟩
  · exact .inl ⟨rfl, hquote, hback, hplain⟩
  · exact .inr ⟨_, rfl, fun rest ↦ by rw [← hofNat, h8]; rfl⟩
  · exact .inr ⟨_, rfl, fun rest ↦ by rw [← hofNat, hC]; rfl⟩
  · exact .inr ⟨_, rfl, fun rest ↦ by rw [← hofNat, hA]; rfl⟩
  · exact .inr ⟨_, rfl, fun rest ↦ by rw [← hofNat, hD]; rfl⟩
  · exact .inr ⟨_, rfl, fun rest ↦ by rw [← hofNat, h9]; rfl⟩
  · refine .inr ⟨_, rfl, fun rest ↦ ?_⟩
    exact (unicodeEscape_hexDigits (Nat.not_le.mp hplain) rest).trans (by rw [hofNat])

/-- The characters of a string are read from their escapes. -/
theorem stringChars_escapeAll (h : cs.length < fuel) (rest : List Char) :
    stringChars fuel (escapeAll cs ++ '"' :: rest) = .ok (cs, rest) := by
  induction cs generalizing fuel with
  | nil =>
    obtain ⟨fuel, rfl⟩ := Nat.exists_eq_succ_of_ne_zero (Nat.ne_zero_of_lt h)
    rfl
  | cons c cs ih =>
    obtain ⟨fuel, rfl⟩ := Nat.exists_eq_succ_of_ne_zero (Nat.ne_zero_of_lt h)
    have hcs := ih (show cs.length < fuel by simpa using h)
    rcases escape_cases c with ⟨hc, hquote, hback, hplain⟩ | ⟨e, hc, he⟩
    · simp [escapeAll, hc, stringChars, Nat.not_lt.mpr hplain, hcs, bind, Except.bind]
    · simp [escapeAll, hc, stringChars, he, hcs, bind, Except.bind]

theorem length_le_escapeAll (cs : List Char) : cs.length ≤ (escapeAll cs).length := by
  induction cs with
  | nil => exact Nat.le_refl 0
  | cons c cs ih =>
    have hc : 1 ≤ (escape c).length := by
      rcases escape_cases c with ⟨hc, -⟩ | ⟨e, hc, -⟩ <;> simp [hc]
    simp only [escapeAll, List.length_append, List.length_cons]
    omega

/-- A quoted string is read as the string, after its opening quote. -/
theorem stringBody_quoteChars (s : String) (rest : List Char) :
    stringBody (escapeAll s.toList ++ '"' :: rest) = .ok (s, rest) := by
  have hfuel : s.toList.length < (escapeAll s.toList ++ '"' :: rest).length + 1 := by
    have := length_le_escapeAll s.toList
    simp only [List.length_append, List.length_cons]
    omega
  simp only [stringBody, stringChars_escapeAll hfuel, bind, Except.bind, String.ofList_toList]

/-! ### Members -/

/-- A member with a greater key than all others comes last. -/
theorem insertField_eq_concat {key : String} {fields : List (String × Json)} (value : Json)
    (h : ∀ f ∈ fields, f.1 < key) : insertField key value fields = fields ++ [(key, value)] := by
  induction fields with
  | nil => rfl
  | cons f fields ih =>
    have hf : f.1 < key := h f List.mem_cons_self
    rw [insertField, if_neg (String.lt_asymm hf), if_neg (String.ne_of_lt hf),
      ih fun g hg ↦ h g (List.mem_cons_of_mem _ hg)]
    rfl

/-- Members in the order of their keys are put in one after the other. -/
theorem foldl_insertField {above : Option String} {fields seen : List (String × Json)}
    (h : CanonicalFields above fields) (hseen : ∀ f ∈ seen, ∃ a, above = some a ∧ f.1 ≤ a) :
    fields.foldl (fun acc (k, v) ↦ insertField k v acc) seen = seen ++ fields := by
  induction fields generalizing above seen with
  | nil => simp
  | cons f fields ih =>
    obtain ⟨k, v⟩ := f
    simp only [CanonicalFields] at h
    obtain ⟨hk, -, hfields⟩ := h
    have hless : ∀ f ∈ seen, f.1 < k := fun f hf ↦ by
      obtain ⟨a, ha, hle⟩ := hseen f hf
      exact lt_of_le_of_lt hle (hk a ha)
    have hnext : ∀ f ∈ seen ++ [(k, v)], ∃ a, some k = some a ∧ f.1 ≤ a := fun f hf ↦ by
      rcases List.mem_append.mp hf with hf | hf
      · exact ⟨k, rfl, le_of_lt (hless f hf)⟩
      · obtain rfl := List.mem_singleton.mp hf
        exact ⟨k, rfl, le_refl k⟩
    simp only [List.foldl_cons, insertField_eq_concat v hless, ih hfields hnext, List.append_assoc,
      List.singleton_append]

/-- An object that is made of members in the order of their keys has these members. -/
theorem ofFields_eq_object {fields : List (String × Json)} (h : CanonicalFields none fields) :
    ofFields fields = .object fields := by
  have hnone : ∀ f ∈ ([] : List (String × Json)), ∃ a, none = some a ∧ f.1 ≤ a := by simp
  rw [ofFields, foldl_insertField h hnone, List.nil_append]

/-! ### Values -/

/-- What stands before an item or a member. -/
def separator (first : Bool) : List Char := if first then [] else [',']

/-- Texts with commas between them, and a comma before the first one unless it is the first of all. -/
def inList (first : Bool) : List (List Char) → List Char
  | [] => []
  | t :: ts => separator first ++ (t ++ inList false ts)

/-- A member as it is written. -/
def memberChars (f : String × Json) : List Char :=
  quoteChars f.1 ++ ':' :: compactChars f.2

theorem compactItems_eq (items : List Json) : compactItems items = inList true (items.map compactChars) := by
  induction items with
  | nil => rfl
  | cons x items ih =>
    cases items with
    | nil => simp [compactItems, inList, separator]
    | cons y items => simpa [compactItems, inList, separator] using ih

theorem compactFields_eq (fields : List (String × Json)) :
    compactFields fields = inList true (fields.map memberChars) := by
  induction fields with
  | nil => rfl
  | cons f fields ih =>
    cases fields with
    | nil => simp [compactFields, inList, separator, memberChars]
    | cons g fields => simpa [compactFields, inList, separator, memberChars] using ih

/-- How a value begins that is written. -/
theorem exists_compactChars_eq_cons {v : Json} (h : v.Canonical) :
    ∃ c cs, compactChars v = c :: cs ∧ isSpace c = false ∧ c ≠ ']' := by
  cases v with
  | null => exact ⟨_, _, rfl, rfl, by decide⟩
  | bool b => cases b <;> exact ⟨_, _, rfl, rfl, by decide⟩
  | int i =>
    rcases lt_or_ge i 0 with hi | hi
    · exact ⟨'-', _, if_pos hi, rfl, by decide⟩
    · have hne : Nat.toDigits 10 i.natAbs ≠ [] := Nat.toDigits_ne_nil
      obtain ⟨c, cs, hcs⟩ := List.exists_cons_of_ne_nil hne
      have hdigit : c.isDigit = true :=
        Nat.isDigit_of_mem_toDigits (b := 10) (n := i.natAbs) (by omega) (by omega) (by simp [hcs])
      refine ⟨c, cs, (if_neg (not_lt.mpr hi)).trans hcs, isSpace_of_isDigit hdigit, ?_⟩
      rintro rfl
      cases hdigit
  | real x => exact h.elim
  | string s => exact ⟨_, _, rfl, rfl, by decide⟩
  | array items => exact ⟨_, _, rfl, rfl, by decide⟩
  | object fields => exact ⟨_, _, rfl, rfl, by decide⟩

theorem endsNumber_inList (ts : List (List Char)) (close : Char) (hclose : EndsNumber [close])
    (rest : List Char) : EndsNumber (inList false ts ++ close :: rest) := by
  cases ts with
  | nil => exact hclose
  | cons t ts => exact endsNumber_cons (by decide) _

/-- Digits at the beginning of a value are those of a number. -/
theorem valueWith_of_isDigit (h : c.isDigit = true) (cs : List Char) :
    valueWith (fuel + 1) d (c :: cs) = number false (c :: cs) := by
  have hne : ∀ x : Char, x.isDigit = false → c ≠ x := by
    rintro x hx rfl
    exact absurd (h.symm.trans hx) nofun
  simp [valueWith, dropSpaces_cons (isSpace_of_isDigit h), digit?_of_isDigit h, hne 'n' rfl, hne 't' rfl,
    hne 'f' rfl, hne '-' rfl, hne '"' rfl, hne '[' rfl, hne '\x7b' rfl]

/-- An integer is read from its digits. -/
theorem valueWith_intChars {i : Int} (hlow : -(wordValues 63 : Int) ≤ i) (hhigh : i < wordValues 64)
    (hrest : EndsNumber rest) :
    valueWith (fuel + 1) d (intChars i ++ rest) = .ok (.int i, rest) := by
  have hw : (wordValues 63 : Int) = 9223372036854775808 := rfl
  have hw' : (wordValues 64 : Int) = 18446744073709551616 := rfl
  have hmax : maxSignificand = 18446744073709551615 := rfl
  have hfits : i.natAbs ≤ maxSignificand := by omega
  by_cases hi : i < 0
  · have hrange : ¬ (i.natAbs = 0 ∨ wordValues 63 < i.natAbs) := by
      have hw63 : wordValues 63 = 9223372036854775808 := rfl
      omega
    have hi' : -(i.natAbs : Int) = i := by omega
    rw [intChars, if_pos hi, List.cons_append]
    simp only [valueWith, dropSpaces_cons (show isSpace '-' = false from rfl),
      number_toDigits true hfits hrest, integer, if_true, if_neg hrange, hi']
  · obtain ⟨c, cs, hcs⟩ := List.exists_cons_of_ne_nil (Nat.toDigits_ne_nil (b := 10) (n := i.natAbs))
    have hdigit : c.isDigit = true :=
      Nat.isDigit_of_mem_toDigits (b := 10) (n := i.natAbs) (by omega) (by omega) (by simp [hcs])
    have hi' : (i.natAbs : Int) = i := by omega
    have hnumber := number_toDigits false hfits hrest
    rw [intChars, if_neg hi]
    rw [hcs, List.cons_append] at hnumber ⊢
    rw [valueWith_of_isDigit hdigit, hnumber]
    simp [integer, hi']

mutual

/-- A value is read from its text, whatever follows that ends a number. -/
theorem valueWith_compactChars (v : Json) (hv : v.Canonical) (fuel d : Nat)
    (hfuel : (compactChars v).length ≤ fuel) (hdepth : v.depth ≤ d) {rest : List Char}
    (hrest : EndsNumber rest) : valueWith fuel d (compactChars v ++ rest) = .ok (v, rest) := by
  obtain ⟨c, cs, hcs, -⟩ := exists_compactChars_eq_cons hv
  obtain ⟨fuel, rfl⟩ := Nat.exists_eq_succ_of_ne_zero (n := fuel) (by rw [hcs] at hfuel; simp at hfuel; omega)
  match v with
  | .null => rfl
  | .bool true => rfl
  | .bool false => rfl
  | .int i => exact valueWith_intChars hv.1 hv.2 hrest
  | .real x => exact hv.elim
  | .string s =>
    simp [compactChars, quoteChars, valueWith, dropSpaces_cons (show isSpace '"' = false from rfl),
      stringBody_quoteChars, bind, Except.bind]
  | .array items =>
    obtain ⟨d, rfl⟩ := Nat.exists_eq_succ_of_ne_zero (n := d) (by simp only [depth] at hdepth; omega)
    simp only [compactChars, compactItems_eq, List.length_cons, List.length_append] at hfuel
    simp only [compactChars, compactItems_eq, List.cons_append, List.append_assoc]
    have hitems := itemsWith_inList items true hv fuel d (by simpa using hfuel)
      (by simpa [depth] using hdepth) rest
    simp [valueWith, dropSpaces_cons (show isSpace '[' = false from rfl), hitems, bind, Except.bind]
  | .object fields =>
    obtain ⟨d, rfl⟩ := Nat.exists_eq_succ_of_ne_zero (n := d) (by simp only [depth] at hdepth; omega)
    simp only [compactChars, compactFields_eq, List.length_cons, List.length_append] at hfuel
    simp only [compactChars, compactFields_eq, List.cons_append, List.append_assoc]
    have hfields := fieldsWith_inList fields true hv fuel d (by simpa using hfuel)
      (by simpa [depth] using hdepth) rest
    simp [valueWith, dropSpaces_cons (show isSpace '\x7b' = false from rfl), hfields, bind, Except.bind,
      ofFields_eq_object hv]

/-- The items of an array are read from their texts. -/
theorem itemsWith_inList (items : List Json) (first : Bool) (hitems : CanonicalItems items) (fuel d : Nat)
    (hfuel : (inList first (items.map compactChars)).length + 1 ≤ fuel) (hdepth : depthItems items ≤ d)
    (rest : List Char) :
    itemsWith fuel d first (inList first (items.map compactChars) ++ ']' :: rest) = .ok (items, rest) := by
  obtain ⟨fuel, rfl⟩ := Nat.exists_eq_succ_of_ne_zero (n := fuel) (by omega)
  match items with
  | [] => rfl
  | x :: items =>
    obtain ⟨c, cs, hcs, hspace, hclose⟩ := exists_compactChars_eq_cons hitems.1
    simp only [depthItems] at hdepth
    simp only [List.map_cons, inList, List.length_append] at hfuel
    have hvalue := valueWith_compactChars x hitems.1 fuel d (by omega) (by omega)
      (endsNumber_inList (items.map compactChars) ']' (endsNumber_cons (by decide) []) rest)
    have hmore := itemsWith_inList items false hitems.2 fuel d
      (by rw [hcs] at hfuel; simp only [List.length_cons] at hfuel; omega) (by omega) rest
    have hnext : nextItem first (inList first ((x :: items).map compactChars) ++ ']' :: rest)
        = .ok (true, compactChars x ++ (inList false (items.map compactChars) ++ ']' :: rest)) := by
      cases first <;>
        simp [nextItem, inList, separator, hcs, dropSpaces_cons hspace, hclose,
          dropSpaces_cons (show isSpace ',' = false from rfl)]
    simp only [itemsWith, hnext, hvalue, hmore, bind, Except.bind, if_true]

/-- The members of an object are read from their texts. -/
theorem fieldsWith_inList (fields : List (String × Json)) (first : Bool) {above : Option String}
    (hfields : CanonicalFields above fields) (fuel d : Nat)
    (hfuel : (inList first (fields.map memberChars)).length + 1 ≤ fuel) (hdepth : depthFields fields ≤ d)
    (rest : List Char) :
    fieldsWith fuel d first (inList first (fields.map memberChars) ++ '\x7d' :: rest)
      = .ok (fields, rest) := by
  obtain ⟨fuel, rfl⟩ := Nat.exists_eq_succ_of_ne_zero (n := fuel) (by omega)
  match fields with
  | [] => rfl
  | (k, v) :: fields =>
    simp only [CanonicalFields] at hfields
    simp only [depthFields] at hdepth
    simp only [List.map_cons, inList, memberChars, List.length_append, List.length_cons] at hfuel
    have hvalue := valueWith_compactChars v hfields.2.1 fuel d (by omega) (by omega)
      (endsNumber_inList (fields.map memberChars) '\x7d' (endsNumber_cons (by decide) []) rest)
    have hmore := fieldsWith_inList fields false hfields.2.2 fuel d (by omega) (by omega) rest
    have hcolon (cs : List Char) : colon (':' :: cs) = .ok cs := rfl
    have hnext : nextKey first (inList first (((k, v) :: fields).map memberChars) ++ '\x7d' :: rest)
        = .ok (true, escapeAll k.toList ++ '"' :: ':' :: (compactChars v ++
          (inList false (fields.map memberChars) ++ '\x7d' :: rest))) := by
      cases first <;>
        simp [nextKey, inList, separator, memberChars, quoteChars,
          dropSpaces_cons (show isSpace '"' = false from rfl),
          dropSpaces_cons (show isSpace ',' = false from rfl)]
    simp only [fieldsWith, hnext, stringBody_quoteChars, hcolon, hvalue, hmore, bind, Except.bind, if_true]

end

/-- The compact text of a value holds that value and nothing else. -/
theorem read_compactChars {v : Json} (hv : v.Canonical) (hdepth : v.depth ≤ maxDepth) :
    read (compactChars v) = .ok v := by
  have hvalue := valueWith_compactChars v hv (fuelFor (compactChars v)) maxDepth
    (by simp only [fuelFor]; omega) hdepth endsNumber_nil
  rw [List.append_nil] at hvalue
  simp [read, value, hvalue, finish, dropSpaces, bind, Except.bind]

theorem ofBytes?_toUTF8_compact (v : Json) :
    ofBytes? v.compact.toUTF8 = (read (compactChars v)).toOption := by
  rw [ofBytes?, Text.fromUTF8?_toUTF8, Option.bind_some, parse?, compact, String.toList_ofList]

/-- The bytes of a written value are read as the value. -/
theorem ofBytes?_compact {v : Json} (hv : v.Canonical) (hdepth : v.depth ≤ maxDepth) :
    ofBytes? v.compact.toUTF8 = some v := by
  rw [ofBytes?_toUTF8_compact, read_compactChars hv hdepth]
  rfl

end CodeNav.Json
