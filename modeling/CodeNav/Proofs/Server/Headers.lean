import CodeNav.Proofs.Json.Rereading
import CodeNav.Proofs.Text.Split
import CodeNav.Server.Wire
import Mathlib.Data.List.Induction
import Mathlib.Data.List.TakeWhile

/-!
# The header of a message

A line of a header gives a length when there is a colon in it and the name before the first colon is the
right one, in letters of any case and with any blanks around it. Other lines do not count, and the last
line that gives a length decides for the whole header, even if what it gives is no number.

## Main definitions

* `Header.IsEmptyLine`: the line that closes a header
* `Header.Gives`, `Header.IsLength`: a line that gives a length, and how a length is written
* `Header.Decides`: the length of a header

## Main statements

* `Decoder.lineEnd_field`, `Decoder.lineEnd_empty`, `Decoder.lineEnd_of_noText`: the reader after a line
* `Header.lengthOf_eq_some`: the length that the reader has after some lines is the one that they decide on
-/

namespace CodeNav

namespace Text

variable {sep : Char} {cs ds before after : List Char}

/-- A text is cut at the first of its separators. -/
theorem splitOnce_singleton_eq_some :
    splitOnce [sep] cs = some (before, after) ↔ cs = before ++ sep :: after ∧ sep ∉ before := by
  induction cs generalizing before with
  | nil => simp [splitOnce, dropLead?]
  | cons c cs ih =>
    by_cases hc : sep = c
    · subst hc
      cases before with
      | nil => simp [splitOnce, dropLead?]
      | cons b before =>
        have hlead : splitOnce [sep] (sep :: cs) = some ([], cs) := by simp [splitOnce, dropLead?]
        rw [hlead]
        simp only [Option.some.injEq, Prod.mk.injEq, List.cons_append, List.cons.injEq, List.mem_cons, not_or]
        refine ⟨fun h ↦ absurd h.1 (List.cons_ne_nil b before).symm, fun h ↦ absurd h.1.1 h.2.1⟩
    · have hcut : splitOnce [sep] (c :: cs) = (splitOnce [sep] cs).map (Prod.map (c :: ·) id) := by
        simp only [splitOnce, dropLead?, if_neg hc]
        rfl
      rw [hcut, Option.map_eq_some_iff]
      constructor
      · rintro ⟨⟨first, rest⟩, hfirst, heq⟩
        obtain ⟨rfl, rfl⟩ := Prod.mk.inj heq
        obtain ⟨rfl, hmem⟩ := ih.mp hfirst
        exact ⟨rfl, by simp [hc, hmem]⟩
      · rintro ⟨heq, hmem⟩
        cases before with
        | nil => exact absurd (List.cons.inj heq).1.symm hc
        | cons b before =>
          obtain ⟨rfl, rfl⟩ := List.cons.inj heq
          exact ⟨(before, after), ih.mpr ⟨rfl, fun h ↦ hmem (List.mem_cons_of_mem _ h)⟩, rfl⟩

theorem splitOnce_singleton_eq_none : splitOnce [sep] cs = none ↔ sep ∉ cs := by
  refine ⟨fun h hmem ↦ ?_, fun h ↦ Option.eq_none_iff_forall_ne_some.mpr ?_⟩
  · obtain ⟨before, after, rfl, hbefore⟩ := List.eq_append_cons_of_mem hmem
    rw [splitOnce_singleton_eq_some.mpr ⟨rfl, hbefore⟩] at h
    cases h
  · rintro ⟨before, after⟩ hsplit
    obtain ⟨rfl, -⟩ := splitOnce_singleton_eq_some.mp hsplit
    simp at h

/-- Blanks at the end of a text are trimmed. -/
theorem trim_append_of_isBlank (cs : List Char) (h : ∀ c ∈ ds, isBlank c = true) :
    trim (cs ++ ds) = trim cs := by
  have hend (xs : List Char) : trimEnd (xs ++ ds) = trimEnd xs := by
    rw [trimEnd, List.reverse_append, List.dropWhile_append_of_pos fun c hc ↦ h c (List.mem_reverse.mp hc),
      trimEnd]
  simp only [trim, trimStart, List.dropWhile_append]
  split
  · rename_i hcs
    rw [List.dropWhile_eq_nil_iff.mpr h, List.isEmpty_iff.mp hcs]
  · exact hend _

end Text

namespace Decoder

variable {cs : List Char} {n : Nat}

theorem digit?_eq_some {c : Char} {d : Nat} :
    Json.digit? c = some d ↔ c.isDigit = true ∧ c.toNat - '0'.toNat = d := by
  by_cases hc : c.isDigit = true
  · simp [Json.digit?_of_isDigit hc, hc]
  · have hnone : Json.digit? c = none := by
      refine if_neg fun hrange ↦ hc ?_
      simp only [Char.isDigit, Bool.and_eq_true, decide_eq_true_eq]
      exact hrange
    simp [hnone, hc]

/-- Digits are read when there are any and nothing else. -/
theorem digits?_eq_some :
    digits? cs = some n ↔ cs ≠ [] ∧ (∀ c ∈ cs, c.isDigit = true) ∧ Nat.ofDigitChars 10 cs 0 = n := by
  have hnone (cs : List Char) :
      cs.foldl (fun acc c ↦ acc.bind fun n ↦ (Json.digit? c).map fun d ↦ n * 10 + d) none = none := by
    induction cs with
    | nil => rfl
    | cons c cs ih => exact ih
  have hfold (cs : List Char) (start : Nat) :
      cs.foldl (fun acc c ↦ acc.bind fun n ↦ (Json.digit? c).map fun d ↦ n * 10 + d) (some start) = some n ↔
        (∀ c ∈ cs, c.isDigit = true) ∧ Nat.ofDigitChars 10 cs start = n := by
    induction cs generalizing start with
    | nil => simp [Nat.ofDigitChars]
    | cons c cs ih =>
      rw [List.foldl_cons, Option.bind_some, Nat.ofDigitChars_cons, List.forall_mem_cons]
      cases hc : Json.digit? c with
      | none =>
        have hdigit : ¬ c.isDigit = true := fun h ↦ by
          rw [Json.digit?_of_isDigit h] at hc
          cases hc
        simp [hnone, hdigit]
      | some d =>
        obtain ⟨hdigit, rfl⟩ := digit?_eq_some.mp hc
        rw [Option.map_some, ih, Nat.mul_comm start 10]
        simp [hdigit]
  rw [digits?]
  split
  · simp_all
  · rename_i hne
    rw [hfold]
    simp [hne]

end Decoder

namespace Header

variable {line cs value : List Char} {lines : List (List Char)} {n : Nat}

/-- A line with nothing in it but carriage returns and line feeds. -/
def IsEmptyLine (line : List Char) : Prop := ∀ c ∈ line, c = '\r' ∨ c = '\n'

instance (line : List Char) : Decidable (IsEmptyLine line) :=
  inferInstanceAs (Decidable (∀ c ∈ line, _))

/-- A line gives a length: it has the name, in letters of any case and with blanks around it, before its
first colon, and a value after it. -/
def Gives (line value : List Char) : Prop :=
  ∃ name, line = name ++ ':' :: value ∧ ':' ∉ name ∧
    (Text.trim name).map Text.lowerAscii = Decoder.lengthName.toList

/-- A length as it is written: decimal digits, perhaps after a plus sign, of a number of 64 bits. -/
def IsLength (cs : List Char) (n : Nat) : Prop :=
  ∃ digits, (cs = digits ∨ cs = '+' :: digits) ∧ digits ≠ [] ∧ (∀ c ∈ digits, c.isDigit = true) ∧
    Nat.ofDigitChars 10 digits 0 = n ∧ n < wordValues 64

/-- The last line that gives a length gives this one, with blanks around it. -/
def Decides (lines : List (List Char)) (n : Nat) : Prop :=
  ∃ before line after value, lines = before ++ line :: after ∧ Gives line value ∧
    IsLength (Text.trim value) n ∧ ∀ other ∈ after, ∀ value, ¬ Gives other value

/-- What the reader makes of the lines of a header. -/
def lengthOf (lines : List (List Char)) : Option Nat :=
  lines.foldl (fun length line ↦ Decoder.afterLine line length) none

/-! ### One line -/

theorem length?_eq_some : Decoder.length? cs = some n ↔ IsLength cs n := by
  simp only [Decoder.length?, Option.filter_eq_some_iff, Decoder.digits?_eq_some, decide_eq_true_eq, IsLength]
  constructor
  · rintro ⟨⟨hne, hdigits, hn⟩, hlt⟩
    refine ⟨_, ?_, hne, hdigits, hn, hlt⟩
    split
    · exact Or.inr rfl
    · exact Or.inl rfl
  · rintro ⟨digits, rfl | rfl, hne, hdigits, hn, hlt⟩
    · refine ⟨?_, hlt⟩
      split
      · -- A plus sign is no digit.
        exact absurd (hdigits '+' List.mem_cons_self) (by decide)
      · exact ⟨hne, hdigits, hn⟩
    · exact ⟨⟨hne, hdigits, hn⟩, hlt⟩

theorem Gives.value_eq {value' : List Char} (h : Gives line value) (h' : Gives line value') :
    value = value' := by
  obtain ⟨name, rfl, hname, -⟩ := h
  obtain ⟨name', heq, hname', -⟩ := h'
  have hcut := Text.splitOnce_singleton_eq_some.mpr ⟨heq, hname'⟩
  rw [Text.splitOnce_singleton_eq_some.mpr ⟨rfl, hname⟩] at hcut
  exact (Prod.mk.inj (Option.some.inj hcut)).2

theorem afterLine_of_gives (h : Gives line value) (length : Option Nat) :
    Decoder.afterLine line length = Decoder.length? (Text.trim value) := by
  obtain ⟨name, rfl, hname, hletters⟩ := h
  have hlower : Decoder.lengthName.toList.map Text.lowerAscii = Decoder.lengthName.toList := by decide
  simp [Decoder.afterLine, Text.splitOnce_singleton_eq_some.mpr ⟨rfl, hname⟩, Text.sameLetters, hletters,
    hlower]

theorem afterLine_of_not_gives (h : ∀ value, ¬ Gives line value) (length : Option Nat) :
    Decoder.afterLine line length = length := by
  rw [Decoder.afterLine]
  split
  · rename_i name value hcut
    obtain ⟨rfl, hname⟩ := Text.splitOnce_singleton_eq_some.mp hcut
    refine if_neg fun hletters ↦ h value ⟨name, rfl, hname, ?_⟩
    have hlower : Decoder.lengthName.toList.map Text.lowerAscii = Decoder.lengthName.toList := by decide
    simpa [Text.sameLetters, hlower] using hletters
  · rfl

/-! ### All lines -/

theorem lengthOf_concat (lines : List (List Char)) (line : List Char) :
    lengthOf (lines ++ [line]) = Decoder.afterLine line (lengthOf lines) := by
  rw [lengthOf, List.foldl_concat, ← lengthOf]

/-- The lines decide on the length that the reader has after them. -/
theorem lengthOf_eq_some : lengthOf lines = some n ↔ Decides lines n := by
  induction lines using List.reverseRecOn with
  | nil => simp [lengthOf, Decides]
  | append_singleton lines line ih =>
    rw [lengthOf_concat]
    by_cases hline : ∃ value, Gives line value
    · obtain ⟨value, hvalue⟩ := hline
      rw [afterLine_of_gives hvalue, length?_eq_some]
      refine ⟨fun h ↦ ⟨lines, line, [], value, rfl, hvalue, h, by simp⟩, ?_⟩
      rintro ⟨before, line', after, value', heq, hvalue', hlength, hafter⟩
      rcases List.eq_nil_or_concat' after with rfl | ⟨after, last, rfl⟩
      · obtain ⟨rfl, rfl⟩ := List.append_singleton_inj.mp heq
        rwa [hvalue.value_eq hvalue']
      · rw [← List.cons_append, ← List.append_assoc] at heq
        obtain ⟨-, rfl⟩ := List.append_singleton_inj.mp heq
        exact absurd hvalue (hafter line (by simp) value)
    · have hline : ∀ value, ¬ Gives line value := fun value h ↦ hline ⟨value, h⟩
      rw [afterLine_of_not_gives hline, ih]
      constructor
      · rintro ⟨before, first, after, value, rfl, hvalue, hlength, hafter⟩
        refine ⟨before, first, after ++ [line], value, by simp, hvalue, hlength, fun other hother ↦ ?_⟩
        rcases List.mem_append.mp hother with hother | hother
        · exact hafter other hother
        · obtain rfl := List.mem_singleton.mp hother
          exact hline
      · rintro ⟨before, first, after, value, heq, hvalue, hlength, hafter⟩
        rcases List.eq_nil_or_concat' after with rfl | ⟨after, last, rfl⟩
        · obtain ⟨-, rfl⟩ := List.append_singleton_inj.mp heq
          exact absurd hvalue (hline value)
        · rw [← List.cons_append, ← List.append_assoc] at heq
          obtain ⟨rfl, -⟩ := List.append_singleton_inj.mp heq
          exact ⟨before, first, after, value, rfl, hvalue, hlength,
            fun other hother ↦ hafter other (List.mem_append_left _ hother)⟩

end Header

namespace Decoder

open Header (IsEmptyLine)

variable {bytes : List UInt8} {cs : List Char}

/-! ### The reader after a line -/

/-- The end of a line is made of carriage returns and line feeds. -/
theorem exists_withoutLineEnd_append (cs : List Char) :
    ∃ ending, cs = withoutLineEnd cs ++ ending ∧ IsEmptyLine ending := by
  refine ⟨(cs.reverse.takeWhile fun c ↦ c = '\r' || c = '\n').reverse, ?_, fun c hc ↦ ?_⟩
  · rw [withoutLineEnd, ← List.reverse_append, List.takeWhile_append_dropWhile, List.reverse_reverse]
  · simpa using List.mem_takeWhile_imp (List.mem_reverse.mp hc)

theorem withoutLineEnd_eq_nil : withoutLineEnd cs = [] ↔ IsEmptyLine cs := by
  simp [withoutLineEnd, IsEmptyLine, List.dropWhile_eq_nil_iff]

/-- The end of a line does not matter for what it says. -/
theorem afterLine_withoutLineEnd (cs : List Char) (length : Option Nat) :
    afterLine (withoutLineEnd cs) length = afterLine cs length := by
  obtain ⟨ending, heq, hending⟩ := exists_withoutLineEnd_append cs
  have hblank : ∀ c ∈ ending, Text.isBlank c = true := fun c hc ↦ by
    rcases hending c hc with rfl | rfl <;> decide
  generalize withoutLineEnd cs = line at heq
  subst heq
  by_cases hcolon : ':' ∈ line
  · obtain ⟨name, value, rfl, hname⟩ := List.eq_append_cons_of_mem hcolon
    have hcut (value : List Char) := Text.splitOnce_singleton_eq_some.mpr
      ⟨(rfl : name ++ ':' :: value = _), hname⟩
    simp only [afterLine, List.append_assoc, List.cons_append, hcut,
      Text.trim_append_of_isBlank value hblank]
  · have hcolon' : ':' ∉ line ++ ending := by
      simp only [List.mem_append, not_or]
      exact ⟨hcolon, fun hmem ↦ absurd (hending ':' hmem) (by decide)⟩
    simp only [afterLine, Text.splitOnce_singleton_eq_none.mpr hcolon,
      Text.splitOnce_singleton_eq_none.mpr hcolon']

theorem lineEnd_of_noText (h : Text.utf8Text? bytes = none) (length : Option Nat) :
    lineEnd bytes length = .stopped := by
  simp only [lineEnd, h]

/-- The reader after a line with something in it. -/
theorem lineEnd_field (h : Text.utf8Text? bytes = some (String.ofList cs)) (hcs : ¬ IsEmptyLine cs)
    (length : Option Nat) : lineEnd bytes length = .header [] (afterLine cs length) := by
  rw [← withoutLineEnd_eq_nil] at hcs
  simp only [lineEnd, h, String.toList_ofList, ← afterLine_withoutLineEnd cs]

/-- The reader after the line that closes a header. -/
theorem lineEnd_empty (h : Text.utf8Text? bytes = some (String.ofList cs)) (hcs : IsEmptyLine cs)
    (length : Option Nat) :
    lineEnd bytes length =
      if length.getD 0 = 0 then .stopped else .body [] (length.getD 0) := by
  rw [← withoutLineEnd_eq_nil] at hcs
  rcases length with _ | _ | n <;> simp [lineEnd, h, hcs]

end Decoder

end CodeNav
