import CodeNav.Json.Parser
import CodeNav.Width

/-!
# Simple values of TOML

Strings, numbers, truth values and dates at the beginning of a text. A date is kept as an object
with one member, since no setting is a date and a reader of settings has to tell it from a string.

## Main definitions

* `Toml.basicString`, `Toml.literalString` and their forms over several lines
* `Toml.numberOrDate`: numbers and dates
* `Toml.key`, `Toml.keyPath`: the names of values and tables
-/

namespace CodeNav.Toml

open Decimal (Double)

/-- Whether a character is a blank inside a line. -/
def isGap (c : Char) : Bool := c = ' ' || c = '\t'

/-- The text without its leading blanks. -/
def dropGap (cs : List Char) : List Char := cs.dropWhile isGap

/-- The text after a line end. -/
def dropLineEnd? : List Char → Option (List Char)
  | '\n' :: rest => some rest
  | '\r' :: '\n' :: rest => some rest
  | _ => none

/-- Whether a character may stand in a comment or a literal string. -/
def isPlain (c : Char) : Bool :=
  c = '\t' || (0x20 ≤ c.toNat && c.toNat ≠ 0x7F)

/-- A number in hexadecimal digits, exactly `count` of them. -/
def hexDigits : Nat → Nat → List Char → Option (Nat × List Char)
  | 0, n, cs => some (n, cs)
  | count + 1, n, c :: cs =>
    match Json.hexValue? c with
    | some d => hexDigits count (n * 16 + d) cs
    | none => none
  | _ + 1, _, [] => none

/-- The character with a code point. -/
def charOf? (n : Nat) : Option Char :=
  if n < 0xD800 ∨ (0xDFFF < n ∧ n < 0x110000) then some (Char.ofNat n) else none

/-- An escape after its backslash. -/
def escape : List Char → Option (Char × List Char)
  | 'b' :: cs => some ('\x08', cs)
  | 't' :: cs => some ('\t', cs)
  | 'n' :: cs => some ('\n', cs)
  | 'f' :: cs => some ('\x0c', cs)
  | 'r' :: cs => some ('\r', cs)
  | '"' :: cs => some ('"', cs)
  | '\\' :: cs => some ('\\', cs)
  | 'u' :: cs => do
    let (n, cs) ← hexDigits 4 0 cs
    some (← charOf? n, cs)
  | 'U' :: cs => do
    let (n, cs) ← hexDigits 8 0 cs
    some (← charOf? n, cs)
  | _ => none

/-- The rest of a string in double quotes. -/
def basicString : Nat → List Char → Option (List Char × List Char)
  | _ + 1, '"' :: cs => some ([], cs)
  | fuel + 1, '\\' :: cs => do
    let (c, cs) ← escape cs
    let (s, cs) ← basicString fuel cs
    some (c :: s, cs)
  | fuel + 1, c :: cs =>
    if isPlain c then (basicString fuel cs).map fun (s, cs) => (c :: s, cs) else none
  | _, _ => none

/-- The rest of a string in single quotes. -/
def literalString : List Char → Option (List Char × List Char)
  | '\'' :: cs => some ([], cs)
  | c :: cs => if isPlain c then (literalString cs).map fun (s, cs) => (c :: s, cs) else none
  | [] => none

/-- The end of a string over several lines, at its first quote: three quotes close it, and one or
two more before them belong to it. -/
def closing? (quote : Char) (cs : List Char) : Option (List Char × List Char) :=
  let count := (cs.takeWhile (· = quote)).length
  if count < 3 then none
  else
    let extra := min (count - 3) 2
    some (List.replicate extra quote, cs.drop (3 + extra))

/-- The text after blanks and line ends. -/
def dropBlankLines (cs : List Char) : List Char :=
  cs.dropWhile fun c => isGap c || c = '\n' || c = '\r'

/-- Whether carriage returns among leading blanks all stand before line ends. -/
def returnsFit : List Char → Bool
  | '\r' :: '\n' :: cs => returnsFit cs
  | '\r' :: _ => false
  | c :: cs => if isGap c || c = '\n' then returnsFit cs else true
  | [] => true

/-- The rest of a string in three double quotes. -/
def basicLines : Nat → List Char → Option (List Char × List Char)
  | 0, _ => none
  | _ + 1, [] => none
  | fuel + 1, '"' :: cs =>
    match closing? '"' ('"' :: cs) with
    | some r => some r
    | none => (basicLines fuel cs).map fun (s, cs) => ('"' :: s, cs)
  | fuel + 1, '\\' :: cs =>
    match dropLineEnd? (dropGap cs) with
    | some rest => if returnsFit rest then basicLines fuel (dropBlankLines rest) else none
    | none => do
      let (c, cs) ← escape cs
      let (s, cs) ← basicLines fuel cs
      some (c :: s, cs)
  | fuel + 1, c :: cs =>
    match dropLineEnd? (c :: cs) with
    | some rest => (basicLines fuel rest).map fun (s, cs) => ('\n' :: s, cs)
    | none =>
      if isPlain c then (basicLines fuel cs).map fun (s, cs) => (c :: s, cs) else none

/-- The rest of a string in three single quotes. -/
def literalLines : Nat → List Char → Option (List Char × List Char)
  | 0, _ => none
  | _ + 1, [] => none
  | fuel + 1, '\'' :: cs =>
    match closing? '\'' ('\'' :: cs) with
    | some r => some r
    | none => (literalLines fuel cs).map fun (s, cs) => ('\'' :: s, cs)
  | fuel + 1, c :: cs =>
    match dropLineEnd? (c :: cs) with
    | some rest => (literalLines fuel rest).map fun (s, cs) => ('\n' :: s, cs)
    | none =>
      if isPlain c then (literalLines fuel cs).map fun (s, cs) => (c :: s, cs) else none

/-- The text without a line end at its beginning. -/
def pastLineEnd (cs : List Char) : List Char :=
  (dropLineEnd? cs).getD cs

/-- A string of any form. -/
def stringValue (cs : List Char) : Option (String × List Char) :=
  let read := match cs with
    | '"' :: '"' :: '"' :: cs => basicLines (cs.length + 1) (pastLineEnd cs)
    | '"' :: cs => basicString (cs.length + 1) cs
    | '\'' :: '\'' :: '\'' :: cs => literalLines (cs.length + 1) (pastLineEnd cs)
    | '\'' :: cs => literalString cs
    | _ => none
  read.map fun (s, cs) => (String.ofList s, cs)

/-- Digits of a base with single underscores between them. -/
def digitsOf (isDigit : Char → Bool) : List Char → Option (List Char × List Char)
  | [] => none
  | c :: cs => if isDigit c then some (go c cs) else none
where
  /-- The digits after a first one. -/
  go (c : Char) : List Char → List Char × List Char
    | '_' :: d :: cs =>
      if isDigit d then let (ds, rest) := go d cs; (c :: ds, rest) else ([c], '_' :: d :: cs)
    | d :: cs =>
      if isDigit d then let (ds, rest) := go d cs; (c :: ds, rest) else ([c], d :: cs)
    | [] => ([c], [])

/-- Whether a character is a decimal digit. -/
def isDecimal (c : Char) : Bool := (Json.digit? c).isSome

/-- The number that digits of a base stand for. -/
def numberOf (base : Nat) (ds : List Char) : Nat :=
  ds.foldl (fun acc c => acc * base + (Json.hexValue? c).getD 0) 0

/-- An integer, when it fits in 64 bits with a sign. -/
def integerOf? (i : Int) : Option Json :=
  if Signed64 i then some (.int i) else none

/-- An integer in another base than ten. -/
def basedInteger (base : Nat) (isDigit : Char → Bool) (cs : List Char) : Option (Json × List Char) := do
  let (ds, cs) ← digitsOf isDigit cs
  some (← integerOf? (numberOf base ds), cs)

/-- The exponent of a number, when there is one. -/
def exponent? : List Char → Option (Option Int × List Char)
  | c :: cs =>
    if c = 'e' ∨ c = 'E' then
      let (negative, cs) := match cs with
        | '-' :: cs => (true, cs)
        | '+' :: cs => (false, cs)
        | cs => (false, cs)
      match digitsOf isDecimal cs with
      | none => none
      | some (ds, cs) =>
        let n : Int := numberOf 10 ds
        some (some (if negative then -n else n), cs)
    else some (none, c :: cs)
  | [] => some (none, [])

/-- A real number, when it is finite. -/
def realOf? (negative : Bool) (digits fraction : List Char) (exponent : Int) : Option Json :=
  let significand := numberOf 10 (digits ++ fraction)
  let shift := exponent - fraction.length
  let bounded := if 400 < shift ∧ significand = 0 then 0 else max (-100000) (min 100000 shift)
  (Double.ofScaled significand bounded).map fun x => .real (if negative then x.neg else x)

/-- A number in base ten after its sign. -/
def decimalNumber (negative : Bool) (cs : List Char) : Option (Json × List Char) := do
  let (ds, cs) ← digitsOf isDecimal cs
  if ds.head? = some '0' ∧ ds.length ≠ 1 then none
  else
    match cs with
    | '.' :: more => do
      let (fraction, more) ← digitsOf isDecimal more
      let (e, more) ← exponent? more
      some (← realOf? negative ds fraction (e.getD 0), more)
    | cs => do
      let (e, more) ← exponent? cs
      match e with
      | some e => some (← realOf? negative ds [] e, more)
      | none =>
        let n : Int := numberOf 10 ds
        some (← integerOf? (if negative then -n else n), more)

/-- Exactly `count` decimal digits that stand for a number in a range. -/
def clockDigits (count low high : Nat) (cs : List Char) : Option (Nat × List Char) :=
  let ds := cs.take count
  if ds.length = count ∧ ds.all isDecimal then
    let n := numberOf 10 ds
    if low ≤ n ∧ n ≤ high then some (n, cs.drop count) else none
  else none

/-- The text after a character that has to be there. -/
def expect (c : Char) : List Char → Option (List Char)
  | d :: cs => if c = d then some cs else none
  | [] => none

/-- The number of days of a month. -/
def daysOf (year month : Nat) : Nat :=
  if month = 2 then if year % 4 = 0 ∧ (year % 100 ≠ 0 ∨ year % 400 = 0) then 29 else 28
  else if month ∈ [4, 6, 9, 11] then 30
  else 31

/-- The text after a day. -/
def pastDay (cs : List Char) : Option (List Char) := do
  let (year, cs) ← clockDigits 4 0 9999 cs
  let cs ← expect '-' cs
  let (month, cs) ← clockDigits 2 1 12 cs
  let cs ← expect '-' cs
  let (_, cs) ← clockDigits 2 1 (daysOf year month) cs
  some cs

/-- The text after a time of day. -/
def pastTime (cs : List Char) : Option (List Char) := do
  let (_, cs) ← clockDigits 2 0 23 cs
  let cs ← expect ':' cs
  let (_, cs) ← clockDigits 2 0 59 cs
  let cs ← expect ':' cs
  let (_, cs) ← clockDigits 2 0 60 cs
  match cs with
  | '.' :: more => if more.head?.any isDecimal then some (more.dropWhile isDecimal) else some cs
  | cs => some cs

/-- The text after an offset from universal time. -/
def pastOffset (cs : List Char) : List Char :=
  match cs with
  | 'Z' :: cs => cs
  | 'z' :: cs => cs
  | sign :: more =>
    if sign = '+' ∨ sign = '-' then
      (do
        let (_, more) ← clockDigits 2 0 23 more
        let more ← expect ':' more
        let (_, more) ← clockDigits 2 0 59 more
        some more : Option (List Char)).getD cs
    else cs
  | [] => []

/-- The text after a day, a time of day, or both. -/
def pastDate? (cs : List Char) : Option (List Char) :=
  match pastDay cs with
  | none => pastTime cs
  | some rest =>
    match rest with
    | c :: more =>
      if c = 'T' ∨ c = 't' ∨ c = ' ' then
        match pastTime more with
        | some more => some (pastOffset more)
        | none => some rest
      else some rest
    | [] => some []

/-- The key under which a date is kept. -/
def dateKey : String := "$__toml_private_datetime"

/-- A number or a date. -/
def numberOrDate (cs : List Char) : Option (Json × List Char) :=
  match pastDate? cs with
  | some rest =>
    let text := String.ofList (cs.take (cs.length - rest.length))
    some (.object [(dateKey, .string text)], rest)
  | none =>
    match cs with
    | '0' :: 'x' :: cs => basedInteger 16 (fun c => (Json.hexValue? c).isSome) cs
    | '0' :: 'o' :: cs => basedInteger 8 (fun c => '0' ≤ c && c ≤ '7') cs
    | '0' :: 'b' :: cs => basedInteger 2 (fun c => c = '0' || c = '1') cs
    | '-' :: cs => signed true cs
    | '+' :: cs => signed false cs
    | cs => decimalNumber false cs
where
  /-- What follows a sign. -/
  signed (negative : Bool) : List Char → Option (Json × List Char)
    | 'i' :: 'n' :: 'f' :: cs => some (.real default, cs)
    | 'n' :: 'a' :: 'n' :: cs => some (.real default, cs)
    | cs => decimalNumber negative cs

/-- Whether a character may stand in a key without quotes. -/
def isBare (c : Char) : Bool :=
  isDecimal c || ('a' ≤ c && c ≤ 'z') || ('A' ≤ c && c ≤ 'Z') || c = '_' || c = '-'

/-- A key. -/
def key (cs : List Char) : Option (String × List Char) :=
  match cs with
  | '"' :: cs => (basicString (cs.length + 1) cs).map fun (s, cs) => (String.ofList s, cs)
  | '\'' :: cs => (literalString cs).map fun (s, cs) => (String.ofList s, cs)
  | cs =>
    let name := cs.takeWhile isBare
    if name.isEmpty then none else some (String.ofList name, cs.dropWhile isBare)

/-- Keys with dots between them and blanks around. -/
def keyPath : Nat → List Char → Option (List String × List Char)
  | 0, _ => none
  | fuel + 1, cs => do
    let (k, cs) ← key (dropGap cs)
    match dropGap cs with
    | '.' :: cs => do
      let (ks, cs) ← keyPath fuel cs
      some (k :: ks, cs)
    | cs => some ([k], cs)

/-- How many keys a name may have, and how deep values may be nested. -/
def limit : Nat := 80

end CodeNav.Toml
