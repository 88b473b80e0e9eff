import CodeNav.Text.Split

/-!
# Network addresses in host names

A host whose last label is a number is an IPv4 address of one to four numbers in decimal, octal or
hexadecimal notation; a host in brackets is an IPv6 address. Addresses are written back in one form:
four decimal numbers, and eight hexadecimal groups of which the first longest run of at least two
zero groups is left out.

## Main definitions

* `Ipv4.endsInNumber`, `Ipv4.parse?`, `Ipv4.text`
* `Ipv6.parse?`, `Ipv6.text`
-/

namespace CodeNav

namespace Ipv4

/-- The value of a digit of a number in some base. -/
def digitIn? (base : Nat) (c : Char) : Option Nat :=
  let value? :=
    if '0' ≤ c ∧ c ≤ '9' then some (c.toNat - '0'.toNat)
    else if 'a' ≤ c ∧ c ≤ 'f' then some (c.toNat - 'a'.toNat + 10)
    else if 'A' ≤ c ∧ c ≤ 'F' then some (c.toNat - 'A'.toNat + 10)
    else none
  value?.filter (· < base)

/-- The number that digits of a base stand for. -/
def numberIn? (base : Nat) (cs : List Char) : Option Nat :=
  cs.foldl (fun acc c => acc.bind fun n => (digitIn? base c).map (n * base + ·)) (some 0)

/-- The number a label stands for: hexadecimal after `0x`, octal after `0`, else decimal. -/
def number? (label : List Char) : Option Nat :=
  match label with
  | [] => none
  | '0' :: 'x' :: rest => numberIn? 16 rest
  | '0' :: 'X' :: rest => numberIn? 16 rest
  | '0' :: c :: rest => numberIn? 8 (c :: rest)
  | cs => numberIn? 10 cs

/-- The labels of a host, without the empty one after a dot at the end. -/
def labels (host : List Char) : List (List Char) :=
  let parts := Text.splitOn '.' host
  if parts.getLast? = some [] then parts.dropLast else parts

/-- Whether the last label of a host is a number, so that it has to be an address. -/
def endsInNumber (host : List Char) : Bool :=
  match (labels host).getLast? with
  | none => false
  | some last =>
    (!last.isEmpty && last.all fun c => '0' ≤ c && c ≤ '9') || (number? last).isSome

/-- The address that a host stands for. The last number fills the bytes that the others leave. -/
def parse? (host : List Char) : Option Nat := do
  let parts := labels host
  if 4 < parts.length then none
  else
    let numbers ← parts.mapM number?
    let last ← numbers.getLast?
    let leading := numbers.dropLast
    if Nat.pow 256 (4 - leading.length) ≤ last then none
    else if leading.any (255 < ·) then none
    else
      let high := leading.foldl (fun acc n => acc * 256 + n) 0
      some (high * Nat.pow 256 (4 - leading.length) + last)

/-- The four numbers of an address. -/
def text (address : Nat) : List Char :=
  let byte (k : Nat) := Nat.toDigits 10 (address / Nat.pow 256 k % 256)
  byte 3 ++ '.' :: byte 2 ++ '.' :: byte 1 ++ '.' :: byte 0

end Ipv4

namespace Ipv6

/-- At most four hexadecimal digits at the beginning of a text, their value and the rest. -/
def group (cs : List Char) : Nat × Nat × List Char :=
  let digits := (cs.take 4).takeWhile fun c => (Ipv4.digitIn? 16 c).isSome
  ((Ipv4.numberIn? 16 digits).getD 0, digits.length, cs.drop digits.length)

/-- A decimal number below 256 without leading zeros, at the end of an address. -/
def tailByte? (cs : List Char) : Option Nat :=
  match cs with
  | [] => none
  | ['0'] => some 0
  | '0' :: _ => none
  | cs => (Ipv4.numberIn? 10 cs).filter (· ≤ 255)

/-- The two groups of an IPv4 address at the end of an address. -/
def tailGroups? (cs : List Char) : Option (List Nat) :=
  match (Text.splitOn '.' cs).mapM tailByte? with
  | some [a, b, c, d] => some [a * 256 + b, c * 256 + d]
  | _ => none

/-- The groups of the rest of an address, of which `seen` have been read, and where the double colon
stood. -/
def groups? (fuel : Nat) (cs : List Char) (seen : List Nat) (gap : Option Nat) :
    Option (List Nat × Option Nat) :=
  match fuel, cs with
  | 0, _ => none
  | _ + 1, [] => some (seen, gap)
  | fuel + 1, ':' :: rest =>
    if gap.isSome ∨ seen.length = 8 then none
    else groups? fuel rest seen (some seen.length)
  | fuel + 1, cs =>
    if seen.length = 8 then none
    else
      let (value, length, rest) := group cs
      match rest with
      | '.' :: _ =>
        if length = 0 ∨ 6 < seen.length then none
        else (tailGroups? cs).map fun tail => (seen ++ tail, gap)
      | [':'] => none
      | ':' :: rest => if length = 0 then none else groups? fuel rest (seen ++ [value]) gap
      | [] => some (seen ++ [value], gap)
      | _ => none

/-- The eight groups of an address. -/
def parse? (cs : List Char) : Option (List Nat) :=
  let start : Option (List Char × Option Nat) := match cs with
    | ':' :: ':' :: rest => some (rest, some 0)
    | ':' :: _ => none
    | cs => some (cs, none)
  start.bind fun (rest, gap) =>
    match groups? (cs.length + 2) rest [] gap with
    | none => none
    | some (groups, none) => if groups.length = 8 then some groups else none
    | some (groups, some k) =>
      if groups.length ≤ 8 then
        some (groups.take k ++ List.replicate (8 - groups.length) 0 ++ groups.drop k)
      else none

/-- The length of the run of zero groups at the beginning. -/
def zeroRun (groups : List Nat) : Nat :=
  (groups.takeWhile (· = 0)).length

/-- Place and length of the first longest run of zero groups. -/
def longestRun (groups : List Nat) : Nat × Nat :=
  (List.range groups.length).foldl
    (fun best k => let run := zeroRun (groups.drop k); if best.2 < run then (k, run) else best)
    (0, 0)

/-- Groups in hexadecimal with colons between them. -/
def joined (groups : List Nat) : List Char :=
  Text.joinWith ':' (groups.map (Nat.toDigits 16))

/-- The text of an address, in brackets. -/
def text (groups : List Nat) : List Char :=
  let (start, run) := longestRun groups
  let inner :=
    if run < 2 then joined groups
    else joined (groups.take start) ++ [':', ':'] ++ joined (groups.drop (start + run))
  '[' :: (inner ++ [']'])

end Ipv6

end CodeNav
