import CodeNav.Text.Utf8

/-!
# Percent encoding

A character that may not stand in some part of an address is written as its UTF-8 bytes, each as a
percent sign and two hexadecimal digits. Which characters those are depends on the part; characters
outside ASCII and control characters are always written so.

## Main definitions

* `Percent.fragmentSet`, `Percent.pathSet`, `Percent.segmentSet`, `Percent.userinfoSet`: the
  characters that are encoded in a part
* `Percent.encode`: a text with the characters of a set encoded
* `Percent.decode`: the bytes of an encoded text
-/

namespace CodeNav.Percent

/-- Control characters and characters outside ASCII. -/
def controlSet (c : Char) : Bool :=
  c.toNat < 0x20 || 0x7F ≤ c.toNat

/-- Whether a character is one of a list. -/
def isOneOf (chars : List Char) (c : Char) : Bool :=
  chars.any (· == c)

/-- What is encoded in a fragment. -/
def fragmentSet (c : Char) : Bool :=
  controlSet c || isOneOf [' ', '"', '<', '>', '\x60'] c

/-- What is encoded in a path. -/
def pathSet (c : Char) : Bool :=
  fragmentSet c || isOneOf ['#', '?', '\x7b', '\x7d'] c

/-- What is encoded in a single segment of a path that comes from a file name. -/
def segmentSet (c : Char) : Bool :=
  pathSet c || isOneOf ['/', '%', '\\'] c

/-- What is encoded in a user name and a password. -/
def userinfoSet (c : Char) : Bool :=
  pathSet c || isOneOf ['/', ':', ';', '=', '@', '[', '\\', ']', '^', '|'] c

/-- A hexadecimal digit in upper case. -/
def upperHex (n : Nat) : Char :=
  if n < 10 then Char.ofNat (0x30 + n) else Char.ofNat (0x41 + (n - 10))

/-- A byte as a percent sign and two digits. -/
def encodeByte (b : UInt8) : List Char :=
  ['%', upperHex (b.toNat / 16), upperHex (b.toNat % 16)]

/-- A character with its bytes encoded when it belongs to the set. -/
def encodeChar (set : Char → Bool) (c : Char) : List Char :=
  if set c then (String.utf8EncodeChar c).flatMap encodeByte else [c]

/-- A text with the characters of a set encoded. -/
def encode (set : Char → Bool) (cs : List Char) : List Char :=
  cs.flatMap (encodeChar set)

/-- The value of a hexadecimal digit in either case. -/
def hexValue? (c : Char) : Option Nat :=
  if '0' ≤ c ∧ c ≤ '9' then some (c.toNat - '0'.toNat)
  else if 'a' ≤ c ∧ c ≤ 'f' then some (c.toNat - 'a'.toNat + 10)
  else if 'A' ≤ c ∧ c ≤ 'F' then some (c.toNat - 'A'.toNat + 10)
  else none

/-- The byte of an encoded text at its beginning. -/
def encodedByte? (cs : List Char) : Option (UInt8 × List Char) :=
  match cs with
  | '%' :: a :: b :: rest =>
    match hexValue? a, hexValue? b with
    | some a, some b => some (UInt8.ofNat (16 * a + b), rest)
    | _, _ => none
  | _ => none

/-- The bytes of an encoded text. A percent sign without two digits stands for itself. -/
def decode (cs : List Char) : List UInt8 :=
  match cs with
  | [] => []
  | '%' :: a :: b :: rest =>
    match hexValue? a, hexValue? b with
    | some x, some y => UInt8.ofNat (16 * x + y) :: decode rest
    | _, _ => 0x25 :: decode (a :: b :: rest)
  | c :: rest => String.utf8EncodeChar c ++ decode rest
termination_by cs.length

end CodeNav.Percent
