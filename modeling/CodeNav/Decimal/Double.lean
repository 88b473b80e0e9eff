/-!
# Binary64 numbers in exact arithmetic

A number of the IEEE format binary64 is kept as its 64 bits. Everything about it is computed on
natural numbers: a magnitude is `m · 2^q`, rounding is rounding of a quotient to nearest with ties
to even. Nothing here uses machine floating point, so every function can be evaluated by the kernel.

## Main definitions

* `Double`: the bits
* `Double.nearest`: the magnitude nearest to a quotient of natural numbers
* `Double.ofScaled`: a significand scaled by a power of ten, rounded after each operation
* `Double.shortest`: the fewest decimal digits that read back as the same magnitude
-/

namespace CodeNav.Decimal

/-- A binary64 number, given by its bits. -/
structure Double where
  /-- Sign, biased exponent and fraction. -/
  bits : UInt64
  deriving DecidableEq, Inhabited, Hashable

namespace Double

/-- The bit that holds the sign. -/
def signBit : UInt64 := 0x8000000000000000

/-- The bit that the significand of a normal number has besides the stored fraction. -/
def hiddenBit : Nat := Nat.pow 2 52

/-- Whether the sign bit is set. -/
def isNegative (x : Double) : Bool :=
  x.bits &&& signBit != 0

/-- The number with the opposite sign. -/
def neg (x : Double) : Double :=
  ⟨x.bits ^^^ signBit⟩

/-- The quotient rounded to the nearest natural number, ties to even. -/
def roundDiv (num den : Nat) : Nat :=
  let whole := num / den
  let twice := 2 * (num % den)
  if twice < den then whole
  else if den < twice then whole + 1
  else if whole % 2 = 0 then whole else whole + 1

/-- The quotient `num · 2^(-q) / den`, rounded. -/
def roundScaled (num den : Nat) (q : Int) : Nat :=
  if 0 ≤ q then roundDiv num (den * Nat.pow 2 q.toNat) else roundDiv (num * Nat.pow 2 (-q).toNat) den

/-- The exponent of the largest power of two that is at most `num / den`. -/
def floorLog2 (num den : Nat) : Int :=
  let guess : Int := (Nat.log2 num : Int) - (Nat.log2 den : Int)
  let fits := if 0 ≤ guess then den * Nat.pow 2 guess.toNat ≤ num else den ≤ num * Nat.pow 2 (-guess).toNat
  if fits then guess else guess - 1

/-- The bits of the nonnegative number nearest to `num / den`, or nothing when that is too large to
be finite. -/
def nearest (num den : Nat) : Option UInt64 :=
  if num = 0 then some 0
  else
    let q := max (floorLog2 num den - 52) (-1074)
    let m := roundScaled num den q
    let bits := (q + 1074).toNat * hiddenBit + m
    if bits < 2047 * hiddenBit then some (UInt64.ofNat bits) else none

/-- Significand and exponent of the magnitude: `m · 2^q`. -/
def parts (x : Double) : Nat × Int :=
  let raw := (x.bits &&& (signBit - 1)).toNat
  let exponent : Nat := raw / hiddenBit
  let fraction : Nat := raw % hiddenBit
  if exponent = 0 then (fraction, -1074) else (fraction + hiddenBit, (exponent : Int) - 1075)

/-- The magnitude as a quotient of natural numbers. -/
def ratio (x : Double) : Nat × Nat :=
  let (m, q) := x.parts
  if 0 ≤ q then (m * Nat.pow 2 q.toNat, 1) else (m, Nat.pow 2 (-q).toNat)

/-- The product of two magnitudes. -/
def mul (x y : Double) : Option Double :=
  (nearest (x.ratio.1 * y.ratio.1) (x.ratio.2 * y.ratio.2)).map Double.mk

/-- The quotient of two magnitudes. -/
def div (x y : Double) : Option Double :=
  (nearest (x.ratio.1 * y.ratio.2) (x.ratio.2 * y.ratio.1)).map Double.mk

/-- The number nearest to a natural number. -/
def ofNat (n : Nat) : Option Double :=
  (nearest n 1).map Double.mk

/-- The largest exponent of a power of ten that is finite. -/
def maxPower : Nat := 308

/-- The number nearest to `10^k`. -/
def powerOfTen (k : Nat) : Option Double :=
  ofNat (Nat.pow 10 k)

/-- A magnitude divided by `10^k`, in steps of at most `10^maxPower`. -/
def scaleDown (x : Double) (k : Nat) : Option Double :=
  if x.bits = 0 then some x
  else if _h : k ≤ maxPower then (powerOfTen k).bind x.div
  else ((powerOfTen maxPower).bind x.div).bind fun y => scaleDown y (k - maxPower)
termination_by k
decreasing_by simp only [maxPower] at *; omega

/-- The magnitude of `significand · 10^exponent`. The significand is rounded first and the result is
rounded again after each scaling by a power of ten; so the last digit may differ from that of the
nearest number. Nothing when it is too large. -/
def ofScaled (significand : Nat) (exponent : Int) : Option Double :=
  (ofNat significand).bind fun x =>
    if x.bits = 0 then some x
    else if (maxPower : Int) < exponent then none
    else if 0 ≤ exponent then (powerOfTen exponent.toNat).bind x.mul
    else scaleDown x (-exponent).toNat

/-- The number of decimal digits of a positive number. -/
def digitCount (n : Nat) : Nat :=
  (Nat.toDigits 10 n).length

/-- The exponent of the largest power of ten that is at most `num / den`. -/
def floorLog10 (num den : Nat) : Int :=
  let guess : Int := (digitCount num : Int) - (digitCount den : Int)
  let fits := if 0 ≤ guess then den * Nat.pow 10 guess.toNat ≤ num else den ≤ num * Nat.pow 10 (-guess).toNat
  if fits then guess else guess - 1

/-- The quotient scaled by `10^k`. -/
def scale10 (num den : Nat) (k : Int) : Nat × Nat :=
  if 0 ≤ k then (num * Nat.pow 10 k.toNat, den) else (num, den * Nat.pow 10 (-k).toNat)

/-- Digits with trailing zeros moved into the exponent. -/
def stripZeros (digits : Nat) (exponent : Int) : Nat × Int :=
  if h : digits ≠ 0 ∧ digits % 10 = 0 then stripZeros (digits / 10) (exponent + 1)
  else (digits, exponent)
termination_by digits
decreasing_by omega

/-- Of the two multiples of `10^k` next to a positive magnitude, the nearer one that lies in the
interval of reals that round to it. The ends of the interval belong to it when the significand is
even. -/
def onGrid? (x : Double) (k : Int) : Option (Nat × Int) :=
  let (m, q) := x.parts
  -- the value and the ends of the interval in quarters of the last place
  let low := if m = hiddenBit ∧ -1074 < q then 4 * m - 1 else 4 * m - 2
  let quarter (n : Nat) : Nat × Nat :=
    let e := q - 2
    if 0 ≤ e then scale10 (n * Nat.pow 2 e.toNat) 1 (-k) else scale10 n (Nat.pow 2 (-e).toNat) (-k)
  let value := quarter (4 * m)
  let lo := quarter low
  let hi := quarter (4 * m + 2)
  let closed := m % 2 = 0
  let inside (d : Nat) : Bool :=
    if closed then lo.1 ≤ d * lo.2 && d * hi.2 ≤ hi.1 else lo.1 < d * lo.2 && d * hi.2 < hi.1
  let below := value.1 / value.2
  let above := below + 1
  let twice := 2 * (value.1 % value.2)
  match inside below && below != 0, inside above with
  | true, true =>
    if twice < value.2 ∨ (twice = value.2 ∧ below % 2 = 0) then some (below, k)
    else some (above, k)
  | true, false => some (below, k)
  | false, true => some (above, k)
  | false, false => none

/-- Digits `d` and exponent `e` of the shortest decimal `d · 10^e` that reads back as the magnitude,
the nearest one of that length, without trailing zeros. Zero is `0 · 10^0`. -/
def shortest (x : Double) : Nat × Int :=
  if x.parts.1 = 0 then (0, 0)
  else
    let top := floorLog10 x.ratio.1 x.ratio.2
    match (List.range 17).findSome? fun (n : Nat) => onGrid? x (top - n) with
    | some (d, e) => stripZeros d e
    | none => (0, 0)

end Double

end CodeNav.Decimal
