import CodeNav.Json.Basic

/-!
# Writing JSON

The compact form has no blanks. The indented form puts every member and item on a line of its own,
two blanks deeper than what holds it, and writes an empty array or object as a pair of brackets. In
strings only the quote, the backslash and the characters below U+0020 are escaped.

## Main definitions

* `Json.compact`: the compact text
* `Json.indented`: the indented text
* `Decimal.Double.text`: a real number in the fewest digits that read back
-/

namespace CodeNav

namespace Decimal.Double

/-- Digits of a natural number. -/
def digitChars (n : Nat) : List Char :=
  Nat.toDigits 10 n

/-- The text of a finite real number: its shortest digits, in positional notation with at least one
digit after the point when the decimal exponent is in `-5 .. 15`, otherwise with an exponent that
carries its sign. -/
def text (x : Double) : String :=
  let (digits, exponent) := x.shortest
  let ds := digitChars digits
  let count : Int := ds.length
  let lead := exponent + count - 1
  let body : List Char :=
    if digits = 0 then ['0', '.', '0']
    else if -5 ≤ lead ∧ lead ≤ 15 then
      if 0 ≤ exponent then ds ++ List.replicate exponent.toNat '0' ++ ['.', '0']
      else if 0 ≤ lead then ds.take (lead.toNat + 1) ++ '.' :: ds.drop (lead.toNat + 1)
      else ['0', '.'] ++ List.replicate (-lead - 1).toNat '0' ++ ds
    else
      let mantissa := match ds with
        | [] => []
        | [d] => [d]
        | d :: rest => d :: '.' :: rest
      mantissa ++ 'e' :: (if lead < 0 then '-' else '+') :: digitChars lead.natAbs
  String.ofList (if x.isNegative then '-' :: body else body)

end Decimal.Double

namespace Json

/-- A hexadecimal digit in lower case. -/
def hexDigit (n : Nat) : Char :=
  if n < 10 then Char.ofNat (0x30 + n) else Char.ofNat (0x61 + (n - 10))

/-- A character as it stands inside a string. -/
def escape (c : Char) : List Char :=
  if c = '"' then ['\\', '"']
  else if c = '\\' then ['\\', '\\']
  else if 0x20 ≤ c.toNat then [c]
  else if c.toNat = 0x08 then ['\\', 'b']
  else if c.toNat = 0x0C then ['\\', 'f']
  else if c.toNat = 0x0A then ['\\', 'n']
  else if c.toNat = 0x0D then ['\\', 'r']
  else if c.toNat = 0x09 then ['\\', 't']
  else ['\\', 'u', '0', '0', hexDigit (c.toNat / 16), hexDigit (c.toNat % 16)]

/-- The characters of a string, escaped. -/
def escapeAll : List Char → List Char
  | [] => []
  | c :: cs => escape c ++ escapeAll cs

/-- A quoted string. -/
def quoteChars (s : String) : List Char :=
  '"' :: (escapeAll s.toList ++ ['"'])

/-- The digits of an integer, after a minus sign when it is negative. -/
def intChars (i : Int) : List Char :=
  if i < 0 then '-' :: Nat.toDigits 10 i.natAbs else Nat.toDigits 10 i.natAbs

mutual

/-- The compact text of a value. -/
def compactChars : Json → List Char
  | .null => ['n', 'u', 'l', 'l']
  | .bool true => ['t', 'r', 'u', 'e']
  | .bool false => ['f', 'a', 'l', 's', 'e']
  | .int i => intChars i
  | .real x => x.text.toList
  | .string s => quoteChars s
  | .array items => '[' :: (compactItems items ++ [']'])
  | .object fields => '\x7b' :: (compactFields fields ++ ['\x7d'])

/-- The items of an array with commas between them. -/
def compactItems : List Json → List Char
  | [] => []
  | [x] => compactChars x
  | x :: y :: rest => compactChars x ++ ',' :: compactItems (y :: rest)

/-- The members of an object with commas between them. -/
def compactFields : List (String × Json) → List Char
  | [] => []
  | [(k, v)] => quoteChars k ++ ':' :: compactChars v
  | (k, v) :: f :: rest =>
    quoteChars k ++ ':' :: (compactChars v ++ ',' :: compactFields (f :: rest))

end

/-- The compact text of a value. -/
def compact (value : Json) : String :=
  String.ofList (compactChars value)

/-- A line break and the blanks of a level. -/
def lineBreak (level : Nat) : List Char :=
  '\n' :: List.replicate (2 * level) ' '

mutual

/-- The indented text of a value whose first line stands at the given level. -/
def indentedChars (level : Nat) : Json → List Char
  | .array [] => ['[', ']']
  | .object [] => ['\x7b', '\x7d']
  | .array (x :: xs) =>
    '[' :: (indentedItems (level + 1) (x :: xs) ++ lineBreak level ++ [']'])
  | .object (f :: fs) =>
    '\x7b' :: (indentedFields (level + 1) (f :: fs) ++ lineBreak level ++ ['\x7d'])
  | value => compactChars value

/-- The items of an array, each on its own line. -/
def indentedItems (level : Nat) : List Json → List Char
  | [] => []
  | [x] => lineBreak level ++ indentedChars level x
  | x :: y :: rest =>
    lineBreak level ++ indentedChars level x ++ ',' :: indentedItems level (y :: rest)

/-- The members of an object, each on its own line. -/
def indentedFields (level : Nat) : List (String × Json) → List Char
  | [] => []
  | [(k, v)] => lineBreak level ++ quoteChars k ++ [':', ' '] ++ indentedChars level v
  | (k, v) :: f :: rest =>
    lineBreak level ++ quoteChars k ++ [':', ' '] ++ indentedChars level v ++
      ',' :: indentedFields level (f :: rest)

end

/-- The indented text of a value. -/
def indented (value : Json) : String :=
  String.ofList (indentedChars 0 value)

end Json

end CodeNav
