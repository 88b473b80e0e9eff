import CodeNav.Toml.Scalar
import CodeNav.Toml.Tree

/-!
# TOML documents

A document is a list of lines: keys with values, and headers that say which table the following
lines belong to.

## Main definitions

* `Toml.value`: a value at the beginning of a text
* `Toml.parse?`: the value of a document, an object
-/

namespace CodeNav.Toml

/-- The text after a comment, up to the line end. -/
def pastComment (cs : List Char) : List Char :=
  match cs with
  | '#' :: cs => cs.dropWhile isPlain
  | cs => cs

/-- The text after blanks, line ends and comments. -/
def pastIdle : Nat → List Char → List Char
  | 0, cs => cs
  | fuel + 1, cs =>
    match dropGap cs with
    | '#' :: cs =>
      let rest := cs.dropWhile isPlain
      match dropLineEnd? rest with
      | some rest => pastIdle fuel rest
      | none => rest
    | cs =>
      match dropLineEnd? cs with
      | some rest => pastIdle fuel rest
      | none => cs

mutual

/-- A value. The fuel also bounds how deep values may be nested. -/
def value (fuel depth : Nat) (cs : List Char) : Option (Json × List Char) :=
  match fuel with
  | 0 => none
  | fuel + 1 =>
    match cs with
    | '"' :: _ => (stringValue cs).map fun (s, cs) => (.string s, cs)
    | '\'' :: _ => (stringValue cs).map fun (s, cs) => (.string s, cs)
    | '[' :: cs =>
      match depth with
      | 0 => none
      | depth + 1 => (items fuel depth cs).map fun (vs, cs) => (.array vs, cs)
    | '\x7b' :: cs =>
      match depth with
      | 0 => none
      | depth + 1 =>
        match dropGap cs with
        | '\x7d' :: cs => some (.object [], cs)
        | cs => (pairs fuel depth .fresh cs).map fun (t, cs) => (t.node.toJson, cs)
    | 't' :: 'r' :: 'u' :: 'e' :: cs => some (.bool true, cs)
    | 'f' :: 'a' :: 'l' :: 's' :: 'e' :: cs => some (.bool false, cs)
    | 'i' :: 'n' :: 'f' :: cs => some (.real default, cs)
    | 'n' :: 'a' :: 'n' :: cs => some (.real default, cs)
    | cs => numberOrDate cs

/-- The items of an array up to its closing bracket. -/
def items (fuel depth : Nat) (cs : List Char) : Option (List Json × List Char) :=
  match fuel with
  | 0 => none
  | fuel + 1 =>
    match pastIdle cs.length cs with
    | ']' :: cs => some ([], cs)
    | cs => do
      let (v, cs) ← value fuel depth cs
      match pastIdle cs.length cs with
      | ',' :: cs => do
        let (vs, cs) ← items fuel depth cs
        some (v :: vs, cs)
      | ']' :: cs => some ([v], cs)
      | _ => none

/-- The members of a table inside a line up to its closing brace. -/
def pairs (fuel depth : Nat) (t : Table) (cs : List Char) : Option (Table × List Char) :=
  match fuel with
  | 0 => none
  | fuel + 1 => do
    let (ks, cs) ← keyPath limit cs
    let cs ← expect '=' cs
    let (v, cs) ← value fuel depth (dropGap cs)
    let k ← ks.getLast?
    let t ← addValue ks.dropLast k v t
    match dropGap cs with
    | ',' :: cs => pairs fuel depth t cs
    | '\x7d' :: cs => some (t, cs)
    | _ => none

end

/-- The text after the end of a line. -/
def endOfLine (cs : List Char) : Option (List Char) :=
  match pastComment (dropGap cs) with
  | [] => some []
  | cs => dropLineEnd? cs

/-- The document after a line that is not blank, and the text after the line. -/
def line (d : Document) (cs : List Char) : Option (Document × List Char) :=
  match cs with
  | '[' :: '[' :: cs => do
    let (ks, cs) ← keyPath limit cs
    let cs ← expect ']' cs
    let cs ← expect ']' cs
    let d ← d.openRow ks
    some (d, ← endOfLine cs)
  | '[' :: cs => do
    let (ks, cs) ← keyPath limit cs
    let cs ← expect ']' cs
    let d ← d.openTable ks
    some (d, ← endOfLine cs)
  | cs => do
    let (ks, cs) ← keyPath limit cs
    let cs ← expect '=' cs
    let (v, cs) ← value (2 * cs.length + 2) limit (dropGap cs)
    let k ← ks.getLast?
    let t ← addValue ks.dropLast k v d.current
    some ({ d with current := t }, ← endOfLine cs)

/-- The document after all lines of a text. -/
def lines : Nat → Document → List Char → Option Document
  | 0, _, _ => none
  | fuel + 1, d, cs =>
    match pastIdle cs.length cs with
    | [] => some d
    | cs => do
      let (d, cs) ← line d cs
      lines fuel d cs

/-- The value of a document. A byte order mark before it says nothing. -/
def parse? (text : String) : Option Json :=
  let cs := match text.toList with
    | '\ufeff' :: cs => cs
    | cs => cs
  do
    let d ← lines (cs.length + 1) .fresh cs
    let root ← d.closed
    some root.node.toJson

end CodeNav.Toml
