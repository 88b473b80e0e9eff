import CodeNav.Json.Number

/-!
# Reading JSON

A reader takes the unread text and gives a value with the text after it, or a `Failure`. Arrays and
objects may be nested 127 deep. Of two members of an object with the same key the later one counts.

## Main definitions

* `Json.stringBody`: the rest of a string after its opening quote
* `Json.value`: a value at the beginning of a text
* `Json.read`: a text that holds one value and nothing else but blanks
* `Json.parse?`, `Json.ofBytes?`: the value of a text or of bytes, when there is one
-/

namespace CodeNav.Json

/-- Whether a character may stand between the parts of a JSON text. -/
def isSpace (c : Char) : Bool :=
  c = ' ' || c = '\n' || c = '\t' || c = '\r'

/-- The text without its leading blanks. -/
def dropSpaces (cs : List Char) : List Char :=
  cs.dropWhile isSpace

/-- The value of a hexadecimal digit in either case. -/
def hexValue? (c : Char) : Option Nat :=
  if '0' ≤ c ∧ c ≤ '9' then some (c.toNat - '0'.toNat)
  else if 'a' ≤ c ∧ c ≤ 'f' then some (c.toNat - 'a'.toNat + 10)
  else if 'A' ≤ c ∧ c ≤ 'F' then some (c.toNat - 'A'.toNat + 10)
  else none

/-- Four hexadecimal digits. -/
def fourHex (cs : List Char) : Except Failure (Nat × List Char) :=
  match cs with
  | a :: b :: c :: d :: rest =>
    match hexValue? a, hexValue? b, hexValue? c, hexValue? d with
    | some a, some b, some c, some d => .ok (((a * 16 + b) * 16 + c) * 16 + d, rest)
    | _, _, _, _ => .error ⟨.invalidEscape, cs, 4⟩
  | _ => if byteCount cs < 4 then failHere .endInString [] else .error ⟨.invalidEscape, cs, 4⟩

/-- A `\u` escape after its letter. A leading surrogate has to be followed by the escape of a
trailing one, and a trailing one may not stand alone. -/
def unicodeEscape (cs : List Char) : Except Failure (Char × List Char) := do
  let (n, rest) ← fourHex cs
  if 0xDC00 ≤ n ∧ n ≤ 0xDFFF then failHere .loneSurrogate rest
  else if n < 0xD800 ∨ 0xDFFF < n then .ok (Char.ofNat n, rest)
  else
    match rest with
    | [] => failHere .endInString []
    | '\\' :: [] => failHere .endInString []
    | '\\' :: 'u' :: rest =>
      let (m, rest) ← fourHex rest
      if m < 0xDC00 ∨ 0xDFFF < m then failHere .loneSurrogate rest
      else .ok (Char.ofNat ((n - 0xD800) * 0x400 + (m - 0xDC00) + 0x10000), rest)
    | '\\' :: rest => failNext .endOfHexEscape rest
    | rest => failNext .endOfHexEscape rest

/-- An escape after its backslash. -/
def escapeSequence (cs : List Char) : Except Failure (Char × List Char) :=
  match cs with
  | [] => failHere .endInString []
  | '"' :: rest => .ok ('"', rest)
  | '\\' :: rest => .ok ('\\', rest)
  | '/' :: rest => .ok ('/', rest)
  | 'b' :: rest => .ok ('\x08', rest)
  | 'f' :: rest => .ok ('\x0c', rest)
  | 'n' :: rest => .ok ('\n', rest)
  | 'r' :: rest => .ok ('\r', rest)
  | 't' :: rest => .ok ('\t', rest)
  | 'u' :: rest => unicodeEscape rest
  | _ => failNext .invalidEscape cs

/-- The characters of a string up to its closing quote, and the text after it. -/
def stringChars : Nat → List Char → Except Failure (List Char × List Char)
  | 0, cs => failHere .endInString cs
  | _ + 1, [] => failHere .endInString []
  | _ + 1, '"' :: rest => .ok ([], rest)
  | fuel + 1, '\\' :: rest => do
    let (c, rest) ← escapeSequence rest
    let (cs, rest) ← stringChars fuel rest
    .ok (c :: cs, rest)
  | fuel + 1, c :: rest =>
    if c.toNat < 0x20 then failHere .controlCharacter rest
    else do
      let (cs, rest) ← stringChars fuel rest
      .ok (c :: cs, rest)

/-- The rest of a string after its opening quote. -/
def stringBody (cs : List Char) : Except Failure (String × List Char) := do
  let (chars, rest) ← stringChars (cs.length + 1) cs
  .ok (String.ofList chars, rest)

/-- The letters of a literal after its first one. -/
def literal (value : Json) : List Char → List Char → Except Failure (Json × List Char)
  | [], rest => .ok (value, rest)
  | _ :: _, [] => failHere .endInValue []
  | l :: ls, c :: cs => if l = c then literal value ls cs else failNext .expectedIdent (c :: cs)

/-- The colon between key and value. -/
def colon (cs : List Char) : Except Failure (List Char) :=
  match dropSpaces cs with
  | [] => failHere .endInObject []
  | ':' :: rest => .ok rest
  | rest => failNext .expectedColon rest

/-- Where the items of an array go on: after the opening bracket (`first`) or after an item. Nothing
is left when the array ends. -/
def nextItem (first : Bool) (cs : List Char) : Except Failure (Bool × List Char) :=
  match dropSpaces cs with
  | [] => failHere .endInList []
  | ']' :: rest => .ok (false, rest)
  | c :: rest =>
    if first then .ok (true, c :: rest)
    else if c = ',' then
      match dropSpaces rest with
      | [] => failHere .endInValue []
      | ']' :: rest => failNext .trailingComma (']' :: rest)
      | rest => .ok (true, rest)
    else failNext .expectedListEnd (c :: rest)

/-- Where the members of an object go on, at the opening quote of a key. -/
def nextKey (first : Bool) (cs : List Char) : Except Failure (Bool × List Char) :=
  match dropSpaces cs with
  | [] => failHere .endInObject []
  | '\x7d' :: rest => .ok (false, rest)
  | c :: rest =>
    if first then
      if c = '"' then .ok (true, rest) else failNext .keyMustBeString (c :: rest)
    else if c = ',' then
      match dropSpaces rest with
      | [] => failHere .endInValue []
      | '"' :: rest => .ok (true, rest)
      | '\x7d' :: rest => failNext .trailingComma ('\x7d' :: rest)
      | rest => failNext .keyMustBeString rest
    else failNext .expectedObjectEnd (c :: rest)

mutual

/-- A value, with arrays and objects nested at most `depth` deep. The fuel bounds the number of
values and brackets that may be read. -/
def valueWith (fuel depth : Nat) (cs : List Char) : Except Failure (Json × List Char) :=
  match fuel with
  | 0 => failHere .endInValue cs
  | fuel + 1 =>
    match dropSpaces cs with
    | [] => failHere .endInValue []
    | 'n' :: rest => literal .null ['u', 'l', 'l'] rest
    | 't' :: rest => literal (.bool true) ['r', 'u', 'e'] rest
    | 'f' :: rest => literal (.bool false) ['a', 'l', 's', 'e'] rest
    | '-' :: rest => number true rest
    | '"' :: rest => do
      let (s, rest) ← stringBody rest
      .ok (.string s, rest)
    | '[' :: rest =>
      match depth with
      | 0 => failNext .tooDeep ('[' :: rest)
      | depth + 1 => do
        let (items, rest) ← itemsWith fuel depth true rest
        .ok (.array items, rest)
    | '\x7b' :: rest =>
      match depth with
      | 0 => failNext .tooDeep ('\x7b' :: rest)
      | depth + 1 => do
        let (fields, rest) ← fieldsWith fuel depth true rest
        .ok (ofFields fields, rest)
    | c :: rest =>
      if (digit? c).isSome then number false (c :: rest)
      else failNext .expectedValue (c :: rest)

/-- The items of an array up to its closing bracket. -/
def itemsWith (fuel depth : Nat) (first : Bool) (cs : List Char) :
    Except Failure (List Json × List Char) :=
  match fuel with
  | 0 => failHere .endInList cs
  | fuel + 1 => do
    let (more, rest) ← nextItem first cs
    if more then
      let (item, rest) ← valueWith fuel depth rest
      let (items, rest) ← itemsWith fuel depth false rest
      .ok (item :: items, rest)
    else .ok ([], rest)

/-- The members of an object up to its closing bracket, in the order of the text. -/
def fieldsWith (fuel depth : Nat) (first : Bool) (cs : List Char) :
    Except Failure (List (String × Json) × List Char) :=
  match fuel with
  | 0 => failHere .endInObject cs
  | fuel + 1 => do
    let (more, rest) ← nextKey first cs
    if more then
      let (key, rest) ← stringBody rest
      let rest ← colon rest
      let (value, rest) ← valueWith fuel depth rest
      let (fields, rest) ← fieldsWith fuel depth false rest
      .ok ((key, value) :: fields, rest)
    else .ok ([], rest)

end

/-- How deep arrays and objects may be nested. -/
def maxDepth : Nat := 127

/-- Fuel that is enough for a text. -/
def fuelFor (cs : List Char) : Nat := 2 * cs.length + 2

/-- A value at the beginning of a text. -/
def value (cs : List Char) : Except Failure (Json × List Char) :=
  valueWith (fuelFor cs) maxDepth cs

/-- Nothing but blanks is left. -/
def finish (cs : List Char) : Except Failure Unit :=
  match dropSpaces cs with
  | [] => .ok ()
  | rest => failNext .trailingCharacters rest

/-- The one value that a text holds. -/
def read (cs : List Char) : Except Failure Json := do
  let (v, rest) ← value cs
  finish rest
  .ok v

/-- The value of a text. -/
def parse? (s : String) : Option Json :=
  (read s.toList).toOption

/-- The value of a text in UTF-8. -/
def ofBytes? (bytes : ByteArray) : Option Json :=
  (String.fromUTF8? bytes).bind parse?

end CodeNav.Json
