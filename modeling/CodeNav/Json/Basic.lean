import CodeNav.Decimal.Double
import CodeNav.Width

/-!
# JSON values

The value type that every message, setting and configuration file is read into and written from.
An object keeps its members in increasing order of their keys; strings are ordered by code points,
which is the order of their UTF-8 bytes. Building an object from a list of members sorts them, and
of two members with the same key the later one is kept.

## Main definitions

* `Json`: the values
* `Json.insertField`, `Json.ofFields`: sorted objects
* `Json.field?`: the member of an object with a given key
* `Json.Canonical`: every object of the value has strictly increasing keys and every integer fits

## Main statements

* `Json.lookup_insertField`: the members of an object that is built from a list of them
-/

namespace CodeNav

open Decimal (Double)

/-- A JSON value. Integers are those of `-2^63 .. 2^64 - 1`; any other number is a `real`. -/
inductive Json where
  | null
  | bool (value : Bool)
  | int (value : Int)
  | real (value : Double)
  | string (value : String)
  | array (items : List Json)
  | object (fields : List (String × Json))
  deriving Inhabited

namespace Json

/-- The members with one more, which replaces a member of the same key. -/
def insertField (key : String) (value : Json) :
    List (String × Json) → List (String × Json)
  | [] => [(key, value)]
  | (k, v) :: rest =>
    if key < k then (key, value) :: (k, v) :: rest
    else if k = key then (key, value) :: rest
    else (k, v) :: insertField key value rest

/-- The object with the given members, of which the last one counts where keys are equal. -/
def ofFields (fields : List (String × Json)) : Json :=
  .object (fields.foldl (fun acc (k, v) => insertField k v acc) [])

/-- The object with those of the given members that are present. -/
def ofPresent (fields : List (String × Option Json)) : Json :=
  ofFields (fields.filterMap fun (k, v) => v.map fun v => (k, v))

/-- The value stored under a key in a list of members. -/
def lookup (key : String) : List (String × Json) → Option Json
  | [] => none
  | (k, v) :: rest => if k = key then some v else lookup key rest

/-- The member of an object with the given key; other values have no members. -/
def field? (value : Json) (key : String) : Option Json :=
  match value with
  | .object fields => lookup key fields
  | _ => none

/-- A member that is put in is the one of its key, and no other member changes. -/
theorem lookup_insertField (k key : String) (v : Json) (fields : List (String × Json)) :
    lookup k (insertField key v fields) = if key = k then some v else lookup k fields := by
  induction fields with
  | nil => simp [insertField, lookup]
  | cons e rest ih =>
    obtain ⟨l, u⟩ := e
    simp only [insertField]
    split
    · simp [lookup]
    · split
      · rename_i hl
        subst hl
        simp only [lookup]
        split <;> rfl
      · rename_i hl
        simp only [lookup, ih]
        by_cases hk : l = k
        · have hkey : key ≠ k := fun h => hl (hk.trans h.symm)
          simp [hk, hkey]
        · simp [hk]

/-- The text of a string value. -/
def string? : Json → Option String
  | .string s => some s
  | _ => none

/-- The items of an array. -/
def array? : Json → Option (List Json)
  | .array items => some items
  | _ => none

/-- The members of an object. -/
def object? : Json → Option (List (String × Json))
  | .object fields => some fields
  | _ => none

/-- The integer, when the value is one that fits in 64 bits with a sign. -/
def int64? : Json → Option Int
  | .int i => if i < wordValues 63 then some i else none
  | _ => none

/-- Whether the value is `null`. -/
def isNull : Json → Bool
  | .null => true
  | _ => false

/-- A natural number as a JSON value. -/
def nat (n : Nat) : Json :=
  .int n

/-- A string, or `null` in place of a missing one. -/
def ofString? : Option String → Json
  | some s => .string s
  | none => .null

/-- A natural number, or `null` in place of a missing one. -/
def ofNat? : Option Nat → Json
  | some n => nat n
  | none => .null

/-- A list of strings. -/
def strings (xs : List String) : Json :=
  .array (xs.map Json.string)

mutual

/-- Whether two values are the same. -/
def beq : Json → Json → Bool
  | .null, .null => true
  | .bool a, .bool b => a == b
  | .int a, .int b => a == b
  | .real a, .real b => decide (a = b)
  | .string a, .string b => a == b
  | .array a, .array b => beqItems a b
  | .object a, .object b => beqFields a b
  | _, _ => false

/-- Whether two lists of values are the same. -/
def beqItems : List Json → List Json → Bool
  | [], [] => true
  | a :: as, b :: bs => beq a b && beqItems as bs
  | _, _ => false

/-- Whether two lists of members are the same. -/
def beqFields : List (String × Json) → List (String × Json) → Bool
  | [], [] => true
  | (k, a) :: as, (l, b) :: bs => k == l && beq a b && beqFields as bs
  | _, _ => false

end

instance : BEq Json := ⟨beq⟩

mutual

/-- Every object of the value has strictly increasing keys, every integer is in range, and there is
no other number in it. -/
def Canonical : Json → Prop
  | .null | .bool _ | .string _ => True
  | .int i => -(wordValues 63 : Int) ≤ i ∧ i < wordValues 64
  | .real _ => False
  | .array items => CanonicalItems items
  | .object fields => CanonicalFields none fields

/-- Every value of the list is canonical. -/
def CanonicalItems : List Json → Prop
  | [] => True
  | x :: xs => Canonical x ∧ CanonicalItems xs

/-- The keys increase from `above` on and every value is canonical. -/
def CanonicalFields (above : Option String) : List (String × Json) → Prop
  | [] => True
  | (k, v) :: rest =>
    (∀ a, above = some a → a < k) ∧ Canonical v ∧ CanonicalFields (some k) rest

end

mutual

/-- How deep arrays and objects are nested in a value. -/
def depth : Json → Nat
  | .array items => depthItems items + 1
  | .object fields => depthFields fields + 1
  | _ => 0

/-- The greatest depth in a list of values. -/
def depthItems : List Json → Nat
  | [] => 0
  | x :: xs => max (depth x) (depthItems xs)

/-- The greatest depth in a list of members. -/
def depthFields : List (String × Json) → Nat
  | [] => 0
  | (_, v) :: rest => max (depth v) (depthFields rest)

end

end Json

end CodeNav
