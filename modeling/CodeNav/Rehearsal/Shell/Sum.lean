/-!
# Sums in shell scripts

## Main definitions

* `Shell.sumValue`: the value of a sum
-/

namespace CodeNav.Rehearsal.Shell

/-- The text after blanks. -/
def pastBlanks (cs : List Char) : List Char := cs.dropWhile (·.isWhitespace)

/-- Operators by how tightly they bind, the loosest first. Longer ones stand before shorter ones. -/
def sumOperators : List (List String) :=
  [["||"], ["&&"], ["==", "!="], ["<=", ">=", "<", ">"], ["+", "-"], ["*", "/", "%"]]

/-- The value of an operator. -/
def sumApply (operator : String) (a b : Int) : Int :=
  let truth (p : Bool) : Int := if p then 1 else 0
  match operator with
  | "||" => truth (a ≠ 0 || b ≠ 0)
  | "&&" => truth (a ≠ 0 && b ≠ 0)
  | "==" => truth (a = b)
  | "!=" => truth (a ≠ b)
  | "<=" => truth (a ≤ b)
  | ">=" => truth (b ≤ a)
  | "<" => truth (a < b)
  | ">" => truth (b < a)
  | "+" => a + b
  | "-" => a - b
  | "*" => a * b
  | "/" => Int.tdiv a b
  | _ => Int.tmod a b

/-- The value of digits. -/
def digitsValue (cs : List Char) : Int :=
  cs.foldl (fun n c => n * 10 + (c.toNat - '0'.toNat : Nat)) 0

mutual

/-- A sum of operators that bind at least so tightly, and the text after it. -/
def sumAt (value : String → Int) (fuel : Nat) (levels : List (List String)) (cs : List Char) :
    Int × List Char :=
  match fuel with
  | 0 => (0, cs)
  | fuel + 1 =>
    match levels with
    | [] => sumLeaf value fuel (pastBlanks cs)
    | operators :: tighter =>
      let (a, rest) := sumAt value fuel tighter cs
      sumMore value fuel operators tighter a rest

/-- What follows a part of a sum. -/
def sumMore (value : String → Int) (fuel : Nat) (operators : List String)
    (tighter : List (List String)) (a : Int) (cs : List Char) : Int × List Char :=
  match fuel with
  | 0 => (a, cs)
  | fuel + 1 =>
    let cs := pastBlanks cs
    match operators.find? fun o => o.toList.isPrefixOf cs with
    | none => (a, cs)
    | some o =>
      let (b, rest) := sumAt value fuel tighter (cs.drop o.length)
      sumMore value fuel operators tighter (sumApply o a b) rest

/-- A number, a variable, a sign or a sum in brackets. -/
def sumLeaf (value : String → Int) (fuel : Nat) (cs : List Char) : Int × List Char :=
  match fuel with
  | 0 => (0, cs)
  | fuel + 1 =>
    match cs with
    | '(' :: rest =>
      let (a, rest) := sumAt value fuel sumOperators rest
      (a, (pastBlanks rest).drop 1)
    | '-' :: rest =>
      let (a, rest) := sumLeaf value fuel (pastBlanks rest)
      (-a, rest)
    | '+' :: rest => sumLeaf value fuel (pastBlanks rest)
    | '!' :: rest =>
      let (a, rest) := sumLeaf value fuel (pastBlanks rest)
      (if a = 0 then 1 else 0, rest)
    | '$' :: rest => sumLeaf value fuel rest
    | cs =>
      let digits := cs.takeWhile (·.isDigit)
      if digits ≠ [] then (digitsValue digits, cs.drop digits.length)
      else
        let name := cs.takeWhile fun c => c.isAlphanum || c = '_'
        (value (String.ofList name), cs.drop name.length)

end

/-- The value of a sum, with the values of variables. -/
def sumValue (value : String → Int) (cs : List Char) : Int :=
  (sumAt value (20 * cs.length + 40) sumOperators cs).1

end CodeNav.Rehearsal.Shell
