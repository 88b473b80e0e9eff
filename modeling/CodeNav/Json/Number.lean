import CodeNav.Json.Basic
import CodeNav.Json.Fault
import CodeNav.Width

/-!
# Reading JSON numbers

An integer of `-2^63 .. 2^64 - 1` is read exactly; the integer `-0` and every other number is read
as a real. Of a long row of digits those that no longer fit in 64 bits only count for the exponent.

## Main definitions

* `Json.number`: a number at the beginning of a text, and the rest
-/

namespace CodeNav.Json

open Decimal (Double)

/-- The value of a decimal digit. -/
def digit? (c : Char) : Option Nat :=
  if '0' ≤ c ∧ c ≤ '9' then some (c.toNat - '0'.toNat) else none

/-- The largest significand. -/
def maxSignificand : Nat := wordValues 64 - 1

/-- The real number with a sign, a significand and a power of ten. -/
def realNumber (negative : Bool) (significand : Nat) (exponent : Int) (rest : List Char) :
    Except Failure (Json × List Char) :=
  match Double.ofScaled significand exponent with
  | some x => .ok (.real (if negative then x.neg else x), rest)
  | none => failHere .numberOutOfRange rest

/-- The text after its leading digits. -/
def dropDigits (cs : List Char) : List Char :=
  cs.dropWhile fun c => (digit? c).isSome

/-- The digits of an exponent after the first one. An exponent that does not fit in 31 bits makes
the number too large or zero. -/
def exponentDigits (negative negativeExponent : Bool) (significand : Nat) (start : Int) (exp : Nat) :
    List Char → Except Failure (Json × List Char)
  | [] => realNumber negative significand (total exp) []
  | c :: cs =>
    match digit? c with
    | none => realNumber negative significand (total exp) (c :: cs)
    | some d =>
      if wordValues 31 - 1 < exp * 10 + d then
        if significand ≠ 0 ∧ negativeExponent = false then failHere .numberOutOfRange cs
        else realNumber negative 0 0 (dropDigits cs)
      else exponentDigits negative negativeExponent significand start (exp * 10 + d) cs
where
  /-- The exponent of the number as a whole. -/
  total (exp : Nat) : Int := if negativeExponent then start - exp else start + exp

/-- An exponent, after its letter. -/
def exponentPart (negative : Bool) (significand : Nat) (start : Int) (cs : List Char) :
    Except Failure (Json × List Char) :=
  let (negativeExponent, cs) := match cs with
    | '+' :: cs => (false, cs)
    | '-' :: cs => (true, cs)
    | cs => (false, cs)
  match cs with
  | [] => failHere .endInValue []
  | c :: rest =>
    match digit? c with
    | some d => exponentDigits negative negativeExponent significand start d rest
    | none => failNext .invalidNumber cs

/-- An exponent when there is one. -/
def exponentPart? (negative : Bool) (significand : Nat) (exponent : Int) :
    List Char → Except Failure (Json × List Char)
  | 'e' :: cs => exponentPart negative significand exponent cs
  | 'E' :: cs => exponentPart negative significand exponent cs
  | cs => realNumber negative significand exponent cs

/-- The digits after the point, of which `seen` have been read. -/
def fractionDigits (negative : Bool) (significand : Nat) (start : Int) (seen : Nat) :
    List Char → Except Failure (Json × List Char)
  | [] =>
    if seen = 0 then failHere .endInValue [] else realNumber negative significand (start - seen) []
  | c :: cs =>
    match digit? c with
    | some d =>
      if maxSignificand < significand * 10 + d then
        exponentPart? negative significand (start - seen) (dropDigits cs)
      else fractionDigits negative (significand * 10 + d) start (seen + 1) cs
    | none =>
      if seen = 0 then failNext .invalidNumber (c :: cs)
      else exponentPart? negative significand (start - seen) (c :: cs)

/-- The digits of an integer part that no longer fit, of which `dropped` have been read. -/
def longInteger (negative : Bool) (significand dropped : Nat) :
    List Char → Except Failure (Json × List Char)
  | [] => realNumber negative significand dropped []
  | '.' :: cs => fractionDigits negative significand dropped 0 cs
  | c :: cs =>
    if (digit? c).isSome then longInteger negative significand (dropped + 1) cs
    else exponentPart? negative significand dropped (c :: cs)

/-- The integer with a sign and a magnitude. -/
def integer (negative : Bool) (magnitude : Nat) (rest : List Char) :
    Except Failure (Json × List Char) :=
  if negative then
    if magnitude = 0 ∨ wordValues 63 < magnitude then realNumber true magnitude 0 rest
    else .ok (.int (-magnitude), rest)
  else .ok (.int magnitude, rest)

/-- What follows the integer part. -/
def afterInteger (negative : Bool) (significand : Nat) :
    List Char → Except Failure (Json × List Char)
  | '.' :: cs => fractionDigits negative significand 0 0 cs
  | 'e' :: cs => exponentPart negative significand 0 cs
  | 'E' :: cs => exponentPart negative significand 0 cs
  | cs => integer negative significand cs

/-- The digits of an integer part after the first one. -/
def integerDigits (negative : Bool) (significand : Nat) :
    List Char → Except Failure (Json × List Char)
  | [] => afterInteger negative significand []
  | c :: cs =>
    match digit? c with
    | some d =>
      if maxSignificand < significand * 10 + d then longInteger negative significand 1 cs
      else integerDigits negative (significand * 10 + d) cs
    | none => afterInteger negative significand (c :: cs)

/-- A number, after its minus sign. -/
def number (negative : Bool) : List Char → Except Failure (Json × List Char)
  | [] => failHere .invalidNumber []
  | '0' :: cs =>
    match cs with
    | c :: _ =>
      if (digit? c).isSome then failNext .invalidNumber cs else afterInteger negative 0 cs
    | [] => afterInteger negative 0 []
  | c :: cs =>
    match digit? c with
    | some d => integerDigits negative d cs
    | none => failNext .invalidNumber (c :: cs)

end CodeNav.Json
