import CodeNav.Json.Printer
import CodeNav.Text.Quoted
import CodeNav.Width

/-!
# What a reader wants of a value

A `Shape` says which values a reader takes: a string, a number of some width, one of a few words, a
record with named members, and so on. `Shape.accept` checks a value against a shape and answers
with the value in a normal form, in which every record is an object that has all its members;
otherwise it tells the first thing that is wrong. Members are checked in the order of the value, so
the first one that does not fit is reported; after that the first member that is missing, in the
order of the record.

## Main definitions

* `Mismatch`: what can be wrong, with its wording in `Mismatch.message`
* `Shape`: what is wanted
* `Shape.accept`: a value in normal form, or what is wrong with it
* `Json.textAt`, `Json.natAt`, …: the members of a value in normal form
-/

namespace CodeNav

namespace Json

/-- How a value is called in messages. -/
def called : Json → String
  | .null => "null"
  | .bool b => if b then "boolean `true`" else "boolean `false`"
  | .int i => "integer `" ++ toString i ++ "`"
  | .real x => "floating point `" ++ x.text ++ "`"
  | .string s => "string " ++ Text.quoted s
  | .array _ => "sequence"
  | .object _ => "map"

/-- The ways in which a value differs from what is wanted. -/
inductive Mismatch where
  /-- Another kind of value is wanted. -/
  | kind (found : Json) (wanted : String)
  /-- The kind of value is right, but not the value itself. -/
  | value (found : Json) (wanted : String)
  | tooShort (length : Nat) (record : String) (members : Nat)
  | tooLong (length : Nat)
  | missing (member : String)
  | duplicate (member : String)
  | unknownWord (found : String) (words : List String)
  | noAlternative (name : String)
  deriving Inhabited

/-- Words between backquotes with `or` before the last one. -/
def listed : List String → String
  | [] => ""
  | [w] => "`" ++ w ++ "`"
  | [v, w] => "`" ++ v ++ "` or `" ++ w ++ "`"
  | w :: ws => "`" ++ w ++ "`, " ++ listed ws

/-- The wording of a mismatch. -/
def Mismatch.message : Mismatch → String
  | kind found wanted => "invalid type: " ++ found.called ++ ", expected " ++ wanted
  | value found wanted => "invalid value: " ++ found.called ++ ", expected " ++ wanted
  | tooShort length record members =>
    "invalid length " ++ toString length ++ ", expected struct " ++ record ++ " with "
      ++ toString members ++ (if members = 1 then " element" else " elements")
  | tooLong length =>
    "invalid length " ++ toString length ++ ", expected fewer elements in array"
  | missing member => "missing field `" ++ member ++ "`"
  | duplicate member => "duplicate field `" ++ member ++ "`"
  | unknownWord found words =>
    "unknown variant `" ++ found ++ "`, expected " ++ listed words
  | noAlternative name => "data did not match any variant of untagged enum " ++ name

/-- What holds for a member that a value does not have. -/
inductive Absence where
  /-- The member has to be there. -/
  | refused
  /-- The member is `null`, but a list of members has to mention it. -/
  | isNull
  /-- The member is the given value. -/
  | means (value : Json)
  deriving Inhabited

/-- The name of a member, another spelling of it, and what holds when it is missing. -/
structure Label where
  name : String
  alias? : Option String
  absence : Absence
  deriving Inhabited

/-- Whether a key is a spelling of a member's name. -/
def Label.isKey (l : Label) (key : String) : Bool :=
  key = l.name || l.alias? = some key

/-- The kinds of values that readers want. -/
inductive Shape where
  | text
  | pathText
  | truth
  /-- A number of the given number of bits. -/
  | natural (bits : Nat)
  /-- An integer of 32 bits with a sign. -/
  | integer
  /-- One of a few words. -/
  | word (words : List String)
  /-- A truth value or an integer, under the name of their union. -/
  | switch (name : String)
  | anything
  | optional (inner : Shape)
  | list (item : Shape)
  /-- An object with any keys. -/
  | table (value : Shape)
  /-- An object with the given members, or a list of them in their order. -/
  | record (name : String) (members : List (Label × Shape))
  /-- An object with the given members beside those that another shape wants. -/
  | merged (name : String) (own : List (Label × Shape)) (rest : Shape)

/-- How a shape is called in messages. -/
def Shape.called : Shape → String
  | text => "a string"
  | pathText => "path string"
  | truth => "a boolean"
  | natural bits => "u" ++ toString bits
  | integer => "i32"
  | word _ => "string or map"
  | switch name => name
  | anything => "any value"
  | optional _ => "option"
  | list _ => "a sequence"
  | table _ => "a map"
  | record name _ => "struct " ++ name
  | merged name _ _ => "struct " ++ name

/-- A number in a range, or what is wrong with it. -/
def acceptInt (low high : Int) (wanted : String) : Json → Except Mismatch Json
  | .int i => if low ≤ i ∧ i ≤ high then .ok (.int i) else .error (.value (.int i) wanted)
  | j => .error (.kind j wanted)

/-- A word, or what is wrong with it. An object with the word as its only key and nothing as its
value stands for the word. -/
def acceptWord (words : List String) : Json → Except Mismatch Json
  | .string s => if s ∈ words then .ok (.string s) else .error (.unknownWord s words)
  | .object [(key, value)] =>
    if key ∈ words then
      match value with
      | .null => .ok (.string key)
      | j => .error (.kind j "unit")
    else .error (.unknownWord key words)
  | .object fields => .error (.value (.object fields) "map with a single key")
  | j => .error (.kind j "string or map")

/-- A truth value, or an integer that fits in 64 bits with a sign. -/
def acceptSwitch (name : String) : Json → Except Mismatch Json
  | .bool b => .ok (.bool b)
  | .int i => if i < wordValues 63 then .ok (.int i) else .error (.noAlternative name)
  | _ => .error (.noAlternative name)

/-- The members of a record that have been read, completed by what holds for the others. -/
def complete (labels : List Label) (got : List (String × Json)) :
    Except Mismatch (List (String × Json)) :=
  labels.mapM fun l =>
    match lookup l.name got, l.absence with
    | some v, _ => .ok (l.name, v)
    | none, .refused => .error (.missing l.name)
    | none, .isNull => .ok (l.name, .null)
    | none, .means v => .ok (l.name, v)

/-- The members of a record from those that were read from a list, which ends before the others. -/
def completeList (record : String) (labels : List Label) (got : List Json) :
    Except Mismatch (List (String × Json)) :=
  labels.zipIdx.mapM fun (l, i) =>
    match got[i]?, l.absence with
    | some v, _ => .ok (l.name, v)
    | none, .means v => .ok (l.name, v)
    | none, _ => .error (.tooShort i record labels.length)

/-- One member more, which may not have been read before. -/
def addMember (got : List (String × Json)) (name : String) (value : Except Mismatch Json) :
    Except Mismatch (List (String × Json)) :=
  if (lookup name got).isSome then .error (.duplicate name)
  else value.map fun v => (name, v) :: got

mutual

/-- The value in the normal form of a shape. Lists may have more items than a record has members
only if `long` says so. -/
def Shape.acceptWith (long : Bool) : Shape → Json → Except Mismatch Json
  | .text, .string s => .ok (.string s)
  | .text, j => .error (.kind j "a string")
  | .pathText, .string s => .ok (.string s)
  | .pathText, j => .error (.kind j "path string")
  | .truth, .bool b => .ok (.bool b)
  | .truth, j => .error (.kind j "a boolean")
  | .natural bits, j => acceptInt 0 (wordValues bits - 1) ("u" ++ toString bits) j
  | .integer, j => acceptInt (-(wordValues 31 : Int)) (wordValues 31 - 1) "i32" j
  | .word words, j => acceptWord words j
  | .switch name, j => acceptSwitch name j
  | .anything, j => .ok j
  | .optional _, .null => .ok .null
  | .optional inner, j => inner.acceptWith long j
  | .list item, .array items => (items.mapM (item.acceptWith long)).map .array
  | .list _, j => .error (.kind j "a sequence")
  | .table value, .object fields =>
    (fields.mapM fun (field : String × Json) =>
      (value.acceptWith long field.2).map fun v => (field.1, v)).map ofFields
  | .table _, j => .error (.kind j "a map")
  | .record _ members, .object fields => do
    let got ← fields.foldlM (fun got (field : String × Json) =>
      match acceptMember long members field.1 field.2 with
      | none => .ok got
      | some (name, v) => addMember got name v) []
    (complete (members.map (·.1)) got).map .object
  | .record name members, .array items => do
    let got ← acceptItems long members items
    let fields ← completeList name (members.map (·.1)) got
    if members.length < items.length ∧ long = false then .error (.tooLong items.length)
    else .ok (.object fields)
  | .record name _, j => .error (.kind j ("struct " ++ name))
  | .merged _ own rest, .object fields => do
    let got ← fields.foldlM (fun got (field : String × Json) =>
      match acceptMember long own field.1 field.2 with
      | none => .ok got
      | some (name, v) => addMember got name v) []
    let mine ← complete (own.map (·.1)) got
    let others ← rest.acceptWith long
      (.object (fields.filter fun (k, _) => !own.any fun m => m.1.isKey k))
    match others with
    | .object theirs => .ok (.object (mine ++ theirs))
    | _ => .ok (.object mine)
  | .merged name _ _, j => .error (.kind j ("struct " ++ name))

/-- The member that a key belongs to and its value, when there is such a member. -/
def acceptMember (long : Bool) (members : List (Label × Shape)) (key : String) (value : Json) :
    Option (String × Except Mismatch Json) :=
  match members with
  | [] => none
  | (l, shape) :: rest =>
    if l.isKey key then some (l.name, shape.acceptWith long value)
    else acceptMember long rest key value

/-- The members of a record from the items of a list. -/
def acceptItems (long : Bool) (members : List (Label × Shape)) (items : List Json) :
    Except Mismatch (List Json) :=
  match members, items with
  | (_, shape) :: rest, item :: items => do
    let v ← shape.acceptWith long item
    let vs ← acceptItems long rest items
    .ok (v :: vs)
  | _, _ => .ok []

end

/-- The value in the normal form of a shape. -/
def Shape.accept (s : Shape) (j : Json) : Except Mismatch Json :=
  s.acceptWith false j

/-- A member that has to be there. -/
def needed (name : String) (shape : Shape) : Label × Shape :=
  (⟨name, none, .refused⟩, shape)

/-- A member that may be missing or `null`. -/
def possible (name : String) (shape : Shape) : Label × Shape :=
  (⟨name, none, .isNull⟩, .optional shape)

/-- A member that may be missing, with another spelling of its name. -/
def setting (name : String) (alias? : Option String) (shape : Shape) : Label × Shape :=
  (⟨name, alias?, .means .null⟩, .optional shape)

/-- The member of a value in normal form. -/
def memberAt (j : Json) (name : String) : Json :=
  (j.field? name).getD .null

/-- A string member. -/
def textAt (j : Json) (name : String) : String :=
  ((j.field? name).bind string?).getD ""

/-- A string member that may be missing. -/
def textAt? (j : Json) (name : String) : Option String :=
  (j.field? name).bind string?

/-- The number of a value. -/
def nat? : Json → Option Nat
  | .int i => if 0 ≤ i then some i.toNat else none
  | _ => none

/-- A number member that may be missing. -/
def natAt? (j : Json) (name : String) : Option Nat :=
  (j.field? name).bind nat?

/-- A number member. -/
def natAt (j : Json) (name : String) : Nat :=
  (natAt? j name).getD 0

/-- A truth value that may be missing; an integer other than zero counts as true. -/
def truthAt? (j : Json) (name : String) : Option Bool :=
  match j.field? name with
  | some (.bool b) => some b
  | some (.int i) => some (i ≠ 0)
  | _ => none

/-- The items of a list member. -/
def itemsAt (j : Json) (name : String) : List Json :=
  ((j.field? name).bind array?).getD []

/-- The strings of a list member. -/
def textsAt (j : Json) (name : String) : List String :=
  (itemsAt j name).filterMap string?

/-- The strings of a member that is an object, with their keys. -/
def textTableAt (j : Json) (name : String) : List (String × String) :=
  (((j.field? name).bind object?).getD []).filterMap fun (k, v) => v.string?.map fun s => (k, s)

end Json

end CodeNav
