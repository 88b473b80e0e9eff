/-!
# Punycode

The form in which a label with characters outside ASCII is written in ASCII. The ASCII characters
come first, then a hyphen, then the other characters in increasing order, each as the distance to
the one before it in a numbering of all places and code points. A distance is a row of digits of
base 36 whose thresholds adapt to the distances seen so far.

## Main definitions

* `Punycode.encode`: the ASCII form of a label, without its leading `xn--`
* `Punycode.decode?`: the label of an ASCII form

## Main statements

* `Punycode.decodeDelta_length`: reading a distance consumes input
-/

namespace CodeNav.Punycode

/-- The digit for a value below 36: letters, then figures. -/
def digitOf (d : Nat) : Char :=
  if d < 26 then Char.ofNat (0x61 + d) else Char.ofNat (0x30 + (d - 26))

/-- The value of a digit. -/
def valueOf? (c : Char) : Option Nat :=
  if 'a' ≤ c ∧ c ≤ 'z' then some (c.toNat - 'a'.toNat)
  else if 'A' ≤ c ∧ c ≤ 'Z' then some (c.toNat - 'A'.toNat)
  else if '0' ≤ c ∧ c ≤ '9' then some (c.toNat - '0'.toNat + 26)
  else none

/-- The threshold at position `k`, a number of `1 .. 26`. -/
def threshold (k bias : Nat) : Nat :=
  if k ≤ bias then 1 else if bias + 26 ≤ k then 26 else k - bias

/-- A threshold is at least one. -/
theorem one_le_threshold (k bias : Nat) : 1 ≤ threshold k bias := by
  unfold threshold
  split
  · omega
  · split <;> omega

/-- A threshold is at most 26. -/
theorem threshold_le (k bias : Nat) : threshold k bias ≤ 26 := by
  unfold threshold
  split
  · omega
  · split <;> omega

/-- Divides a distance by 35 until it is at most 455, counting the positions. -/
def shrink (delta k : Nat) : Nat × Nat :=
  if 455 < delta then shrink (delta / 35) (k + 36) else (delta, k)
termination_by delta
decreasing_by omega

/-- The bias after a distance, with `count` characters placed. -/
def adapt (delta count : Nat) (first : Bool) : Nat :=
  let damped := if first then delta / 700 else delta / 2
  let (rest, k) := shrink (damped + damped / count) 0
  k + 36 * rest / (rest + 38)

/-- The digits of a distance from position `k` on. -/
def deltaDigits (bias k q : Nat) : List Char :=
  let t := threshold k bias
  if q < t then [digitOf q]
  else digitOf (t + (q - t) % (36 - t)) :: deltaDigits bias (k + 36) ((q - t) / (36 - t))
termination_by q
decreasing_by
  have h1 := one_le_threshold k bias
  have h2 := threshold_le k bias
  exact Nat.lt_of_le_of_lt (Nat.div_le_self _ _) (by omega)

/-- What has been written: the digits, the distance since the last of them, the bias and the number
of characters placed. -/
structure Writer where
  digits : List Char
  delta : Nat
  bias : Nat
  placed : Nat

/-- Passes one character of the label while the code point `n` is being placed. -/
def Writer.pass (basic n : Nat) (w : Writer) (c : Char) : Writer :=
  if c.toNat < n then { w with delta := w.delta + 1 }
  else if c.toNat = n then
    { digits := w.digits ++ deltaDigits w.bias 36 w.delta
      delta := 0
      bias := adapt w.delta (w.placed + 1) (w.placed = basic)
      placed := w.placed + 1 }
  else w

/-- Places the code points of a list in turn, the last one placed being just below `n`. -/
def placeAll (label : List Char) (basic : Nat) : List Nat → Nat → Writer → Writer
  | [], _, w => w
  | m :: rest, n, w =>
    let moved := { w with delta := w.delta + (m - n) * (w.placed + 1) }
    let passed := label.foldl (Writer.pass basic m) moved
    placeAll label basic rest (m + 1) { passed with delta := passed.delta + 1 }

/-- A number put into an increasing list that does not hold it yet. -/
def insertNat (n : Nat) : List Nat → List Nat
  | [] => [n]
  | m :: rest => if n < m then n :: m :: rest else if n = m then m :: rest else m :: insertNat n rest

/-- The ASCII form of a label. -/
def encode (label : List Char) : List Char :=
  let basic := label.filter (·.toNat < 0x80)
  let others := (label.filter (0x80 ≤ ·.toNat)).foldr (fun c acc => insertNat c.toNat acc) []
  let w := placeAll label basic.length others 0x80 ⟨[], 0, 72, basic.length⟩
  basic ++ (if basic.isEmpty then [] else ['-']) ++ w.digits

/-- A distance at the beginning of a text, added to `i`, and the rest of the text. -/
def decodeDelta (bias : Nat) : List Char → Nat → Nat → Nat → Option (Nat × List Char)
  | [], _, _, _ => none
  | c :: rest, k, weight, i =>
    match valueOf? c with
    | none => none
    | some d =>
      let t := threshold k bias
      if d < t then some (i + d * weight, rest)
      else decodeDelta bias rest (k + 36) (weight * (36 - t)) (i + d * weight)

/-- Reading a distance consumes at least one digit. -/
theorem decodeDelta_length {bias : Nat} {cs : List Char} {k weight i : Nat}
    {r : Nat × List Char} (h : decodeDelta bias cs k weight i = some r) :
    r.2.length < cs.length := by
  induction cs generalizing k weight i with
  | nil => simp [decodeDelta] at h
  | cons c rest ih =>
    simp only [decodeDelta] at h
    split at h
    · simp at h
    · split at h
      · rw [← Option.some.inj h]
        simp
      · have := ih h
        simp only [List.length_cons]
        omega

/-- Places the characters whose distances are left into what has been decoded. -/
def decodeFrom (bias n i : Nat) (out : List Char) (cs : List Char) : Option (List Char) :=
  match cs with
  | [] => some out
  | c :: rest =>
    match _h : decodeDelta bias (c :: rest) 36 1 i with
    | none => none
    | some (total, left) =>
      let count := out.length + 1
      let point := n + total / count
      let place := total % count
      if point < 0xD800 ∨ (0xDFFF < point ∧ point < 0x110000) then
        decodeFrom (adapt (total - i) count (i = 0)) point (place + 1)
          (out.insertIdx place (Char.ofNat point)) left
      else none
termination_by cs.length
decreasing_by
  have := decodeDelta_length _h
  simpa using this

/-- The characters before and after the last hyphen; all of them come after when there is none, or
none before it. -/
def splitAtHyphen (cs : List Char) : List Char × List Char :=
  let after := (cs.reverse.takeWhile (· ≠ '-')).reverse
  let before := (cs.take (cs.length - after.length)).dropLast
  if before.isEmpty then ([], cs) else (before, after)

/-- The label of an ASCII form. -/
def decode? (cs : List Char) : Option (List Char) :=
  let (basic, rest) := splitAtHyphen cs
  if basic.any (0x80 ≤ ·.toNat) then none else decodeFrom 72 0x80 0 basic rest

end CodeNav.Punycode
