/-!
# Text in UTF-8

Bytes that come from outside are text only when they are well formed UTF-8. Where a text has to be
shown in any case, each maximal part of the bytes that cannot belong to a character is shown as the
replacement character.

## Main definitions

* `utf8Bytes`: the bytes of a text
* `utf8Text?`: the text of well formed bytes
* `utf8Shown`: a text for any bytes
* `utf8Fault?`: what is wrong with bytes that are no text
-/

namespace CodeNav.Text

/-- The bytes of a text. -/
def utf8Bytes (cs : List Char) : List UInt8 :=
  cs.flatMap String.utf8EncodeChar

/-- The text of well formed bytes. -/
def utf8Text? (bytes : List UInt8) : Option String :=
  String.fromUTF8? ⟨bytes.toArray⟩

/-- Whether a byte continues a character. -/
def isContinuation (b : UInt8) : Bool :=
  0x80 ≤ b && b ≤ 0xBF

/-- Range of the second byte and number of continuation bytes after a leading byte. -/
def leadShape? (b : UInt8) : Option (UInt8 × UInt8 × Nat) :=
  if 0xC2 ≤ b && b ≤ 0xDF then some (0x80, 0xBF, 1)
  else if b = 0xE0 then some (0xA0, 0xBF, 2)
  else if b = 0xED then some (0x80, 0x9F, 2)
  else if 0xE1 ≤ b && b ≤ 0xEF then some (0x80, 0xBF, 2)
  else if b = 0xF0 then some (0x90, 0xBF, 3)
  else if b = 0xF4 then some (0x80, 0x8F, 3)
  else if 0xF1 ≤ b && b ≤ 0xF3 then some (0x80, 0xBF, 3)
  else none

/-- How many bytes at the beginning belong together, and whether they are a whole character. -/
def leadingUnit (bytes : List UInt8) : Nat × Bool :=
  match bytes with
  | [] => (0, false)
  | b :: rest =>
    if b < 0x80 then (1, true)
    else
      match leadShape? b, rest with
      | some (low, high, count), second :: more =>
        if low ≤ second && second ≤ high then
          let got := (more.take (count - 1)).takeWhile isContinuation
          (2 + got.length, got.length = count - 1)
        else (1, false)
      | _, _ => (1, false)

/-- The code point of the bytes of one character. -/
def codePoint : List UInt8 → Nat
  | [a] => a.toNat
  | [a, b] => (a.toNat - 0xC0) * 0x40 + (b.toNat - 0x80)
  | [a, b, c] => ((a.toNat - 0xE0) * 0x40 + (b.toNat - 0x80)) * 0x40 + (c.toNat - 0x80)
  | [a, b, c, d] =>
    (((a.toNat - 0xF0) * 0x40 + (b.toNat - 0x80)) * 0x40 + (c.toNat - 0x80)) * 0x40
      + (d.toNat - 0x80)
  | _ => 0xFFFD

/-- Characters for any bytes; the fuel bounds their number. -/
def shownChars : Nat → List UInt8 → List Char
  | 0, _ => []
  | _ + 1, [] => []
  | fuel + 1, b :: rest =>
    let (size, whole) := leadingUnit (b :: rest)
    let c := if whole then Char.ofNat (codePoint ((b :: rest).take size)) else '\ufffd'
    c :: shownChars fuel ((b :: rest).drop (max size 1))

/-- Where bytes begin that belong to no character, and how many they are, unless they only lack bytes
at the end. -/
def findFault : Nat → Nat → List UInt8 → Option (Nat × Option Nat)
  | 0, _, _ => none
  | _ + 1, _, [] => none
  | fuel + 1, index, b :: rest =>
    let (size, whole) := leadingUnit (b :: rest)
    if whole then findFault fuel (index + size) ((b :: rest).drop (max size 1))
    else if (leadShape? b).isSome && size = (b :: rest).length then some (index, none)
    else some (index, some size)

/-- What is wrong with bytes that are no text. -/
def utf8Fault? (bytes : List UInt8) : Option String :=
  (findFault bytes.length 0 bytes).map fun (index, size) =>
    match size with
    | some n => "invalid utf-8 sequence of " ++ toString n ++ " bytes from index " ++ toString index
    | none => "incomplete utf-8 byte sequence from index " ++ toString index

/-- A text for any bytes. -/
def utf8Shown (bytes : List UInt8) : String :=
  match utf8Text? bytes with
  | some s => s
  | none => String.ofList (shownChars bytes.length bytes)

end CodeNav.Text
