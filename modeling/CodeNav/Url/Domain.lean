import CodeNav.Text.Split
import CodeNav.Text.Utf8
import CodeNav.Url.DomainTable
import CodeNav.Url.Punycode

/-!
# International domain names

A domain name is brought into one form: its characters are folded, the result is composed, and each
label with characters outside ASCII is written in ASCII. Names with characters that no name may have
are refused, and so are labels in ASCII form that do not come from an allowed label.

## Main definitions

* `Domain.toAscii?`: the ASCII form of the bytes of a name
* `Domain.compose`: the composed form of a text
-/

namespace CodeNav.Domain

/-- An entry of a table: a range, its step and what its first code point stands for. -/
structure Rule where
  first : Nat
  last : Nat
  step : Nat
  target : List Nat
  deriving Inhabited

/-- The number that hexadecimal digits stand for. -/
def hexNumber (cs : List Char) : Nat :=
  cs.foldl (fun acc c =>
    acc * 16 + (if c.toNat < 0x3A then c.toNat - 0x30 else c.toNat - 0x41 + 10)) 0

/-- The rule that an entry of a table describes. -/
def Rule.ofEntry (entry : List Char) : Rule :=
  let source := entry.takeWhile (· ≠ ':')
  let target := (entry.dropWhile (· ≠ ':')).drop 1
  let step := if source.getLast? = some '/' then 2 else 1
  let range := source.filter (· ≠ '/')
  let first := range.takeWhile (· ≠ '-')
  let last := (range.dropWhile (· ≠ '-')).drop 1
  { first := hexNumber first
    last := if last.isEmpty then hexNumber first else hexNumber last
    step := step
    target := if target.isEmpty then [] else (Text.splitOn '+' target).map hexNumber }

/-- The entries of a table, with blanks and line ends between them. -/
def entriesOf (table : String) : List (List Char) :=
  ((Text.splitOn ' ' table.toList).flatMap (Text.splitOn '\n')).filter (!·.isEmpty)

/-- The rules of a table. -/
def rulesOf (table : String) : List Rule :=
  (entriesOf table).map Rule.ofEntry

/-- Whether a rule is about a code point. -/
def Rule.covers (r : Rule) (n : Nat) : Bool :=
  r.first ≤ n && n ≤ r.last && (n - r.first) % r.step = 0

/-- What a code point that a rule is about stands for. -/
def Rule.apply (r : Rule) (n : Nat) : List Nat :=
  match r.target with
  | [t] => [t + (n - r.first)]
  | ts => ts

/-- The rules of `foldTable`. -/
def foldRules : List Rule := rulesOf foldTable

/-- The rules of `disallowedTable`. -/
def disallowedRules : List Rule := rulesOf disallowedTable

/-- The rules of `markTable`. -/
def markRules : List Rule := rulesOf markTable

/-- The rules of `classTable`. -/
def classRules : List Rule := rulesOf classTable

/-- The pairs of `composeTable` with what they are written as. -/
def composeRules : List (Nat × Nat × Nat) :=
  (entriesOf composeTable).map fun entry =>
    let pair := entry.takeWhile (· ≠ ':')
    (hexNumber (pair.takeWhile (· ≠ '+')), hexNumber ((pair.dropWhile (· ≠ '+')).drop 1),
      hexNumber ((entry.dropWhile (· ≠ ':')).drop 1))

/-- What a character is replaced by. -/
def foldChar (c : Char) : List Char :=
  if 'A' ≤ c ∧ c ≤ 'Z' then [Char.ofNat (c.toNat + 32)]
  else if c.toNat < 0x80 then [c]
  else
    match foldRules.find? (·.covers c.toNat) with
    | some r => (r.apply c.toNat).map Char.ofNat
    | none => [c]

/-- The class that orders a combining mark, zero for other characters. -/
def classOf (n : Nat) : Nat :=
  if n < 0x300 then 0
  else
    match classRules.find? (·.covers n) with
    | some r => r.target.headD 0
    | none => 0

/-- The two code points that a code point is composed of. -/
def parts? (n : Nat) : Option (Nat × Nat) :=
  if n < 0xC0 then none
  else if 0xAC00 ≤ n ∧ n ≤ 0xD7A3 then
    let k := n - 0xAC00
    if k % 28 = 0 then some (0x1100 + k / 588, 0x1161 + k % 588 / 28)
    else some (n - k % 28, 0x11A7 + k % 28)
  else (composeRules.find? (·.2.2 = n)).map fun r => (r.1, r.2.1)

/-- The code point that two code points are written as. -/
def pair? (a b : Nat) : Option Nat :=
  if 0x1100 ≤ a ∧ a < 0x1113 ∧ 0x1161 ≤ b ∧ b < 0x1176 then
    some (0xAC00 + ((a - 0x1100) * 21 + (b - 0x1161)) * 28)
  else if 0xAC00 ≤ a ∧ a ≤ 0xD7A3 ∧ (a - 0xAC00) % 28 = 0 ∧ 0x11A7 < b ∧ b < 0x11C3 then
    some (a + (b - 0x11A7))
  else (composeRules.find? fun r => r.1 = a && r.2.1 = b).map (·.2.2)

/-- A code point taken apart; the fuel bounds how often. -/
def takeApart : Nat → Nat → List Nat
  | 0, n => [n]
  | fuel + 1, n =>
    match parts? n with
    | some (a, b) => takeApart fuel a ++ [b]
    | none => [n]

/-- A mark put among the marks before it, of which the last comes first: behind those of no greater
class, never before a character of class zero. -/
def insertMark (n : Nat) : List Nat → List Nat
  | [] => [n]
  | m :: rest =>
    if classOf n ≠ 0 ∧ classOf n < classOf m then m :: insertMark n rest else n :: m :: rest

/-- A text taken apart with its marks in order. -/
def decompose (points : List Nat) : List Nat :=
  (((points.flatMap (takeApart 8)).foldl (fun acc n => insertMark n acc) [])).reverse

/-- What has been composed: the finished part, the last one first, the character that marks may join
and the marks after it, the last one first. -/
structure Composer where
  done : List Nat
  base : Option Nat
  marks : List Nat

/-- Passes one code point. A mark joins the base unless one of the same or a greater class stands
between. -/
def Composer.pass (k : Composer) (n : Nat) : Composer :=
  match k.base with
  | none => if classOf n = 0 then { k with base := some n } else { k with done := n :: k.done }
  | some base =>
    let blocked := match k.marks with
      | [] => false
      | m :: _ => classOf m = 0 || classOf n ≤ classOf m
    match if blocked then none else pair? base n with
    | some joined => { k with base := some joined }
    | none =>
      if classOf n = 0 then
        { done := k.marks ++ base :: k.done, base := some n, marks := [] }
      else { k with marks := n :: k.marks }

/-- The composed form of a text. -/
def compose (points : List Nat) : List Nat :=
  let k := (decompose points).foldl Composer.pass ⟨[], none, []⟩
  (k.marks ++ k.base.toList ++ k.done).reverse

/-- The composed form of a text of characters. -/
def composeChars (cs : List Char) : List Char :=
  if cs.all (·.toNat < 0x80) then cs
  else (compose (cs.map Char.toNat)).map Char.ofNat

/-- Whether the joiners of a label stand where they may: right after a mark that asks for them. -/
def joinersFit : Nat → List Char → Bool
  | _, [] => true
  | before, c :: rest =>
    (if c.toNat = 0x200C || c.toNat = 0x200D then classOf before = 9 else true)
      && joinersFit c.toNat rest

/-- Whether a label with characters outside ASCII may be part of a name. -/
def isAllowedLabel (label : List Char) : Bool :=
  label.all (fun c => c.toNat < 0x80 || !disallowedRules.any (·.covers c.toNat))
    && !(label.head?.map fun c => markRules.any (·.covers c.toNat)).getD false
    && joinersFit 0 label

/-- The characters of ASCII that no name may have. -/
def isForbidden (c : Char) : Bool :=
  c.toNat ≤ 0x20 || c.toNat = 0x7F ||
    ['%', '#', '/', ':', '<', '>', '?', '@', '[', '\\', ']', '^', '|'].any (· == c)

/-- Whether a label is one in ASCII form that comes from an allowed label: writing that label in
ASCII gives it back. -/
def isAsciiForm (label : List Char) : Bool :=
  match Punycode.decode? (label.drop 4) with
  | none => false
  | some decoded =>
    decoded.any (0x80 ≤ ·.toNat) && isAllowedLabel decoded
      && composeChars decoded == decoded && decoded.flatMap foldChar == decoded
      && Punycode.encode decoded == label.drop 4

/-- A folded label in ASCII. -/
def labelToAscii? (label : List Char) : Option (List Char) :=
  if label.take 4 = ['x', 'n', '-', '-'] then
    if label.all (·.toNat < 0x80) && isAsciiForm label then some label else none
  else if label.all (·.toNat < 0x80) then some label
  else if isAllowedLabel label then some (['x', 'n', '-', '-'] ++ Punycode.encode label)
  else none

/-- The ASCII form of the bytes of a name. -/
def toAscii? (bytes : List UInt8) : Option (List Char) := do
  let text ← Text.utf8Text? bytes
  let folded := composeChars (text.toList.flatMap foldChar)
  let labels ← (Text.splitOn '.' folded).mapM labelToAscii?
  let name := Text.joinWith '.' labels
  if name.any isForbidden then none else some name

end CodeNav.Domain
