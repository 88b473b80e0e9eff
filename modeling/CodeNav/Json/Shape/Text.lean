import CodeNav.Json.Shape
import CodeNav.Json.Parser
import CodeNav.Text.Utf8

/-!
# Reading a shape from a text

Where a text has to hold a value of a certain shape, reading stops at the first place that does not
fit, be it badly written or of the wrong kind. Members that the shape does not know are skipped:
skipped values need not be in range, may be nested to any depth, and their strings may hold bytes
that are no text.

## Main definitions

* `Json.skipValue`: the text after a value of any kind
* `Json.readShape`: a value of a shape, and the text after it
* `Json.Shape.read`: the one value that a text holds, in the normal form of a shape
* `Json.byteText`: the text of bytes, of which some may not be text
-/

namespace CodeNav.Json

/-- The characters of a text given as bytes. A byte that belongs to no character is shown as U+0000,
and the character U+0000 as U+0001, which no JSON text may hold either. -/
def byteText (bytes : List UInt8) : List Char :=
  go bytes.length bytes
where
  /-- The characters, with fuel that bounds their number. -/
  go : Nat → List UInt8 → List Char
    | 0, _ => []
    | _ + 1, [] => []
    | fuel + 1, b :: rest =>
      let (size, whole) := Text.leadingUnit (b :: rest)
      if whole then
        let n := Text.codePoint ((b :: rest).take size)
        (if n = 0 then '\x01' else Char.ofNat n) :: go fuel ((b :: rest).drop (max size 1))
      else '\x00' :: go fuel ((b :: rest).drop (max size 1))

/-- The text after a skipped string. -/
def skipString : Nat → List Char → Except Failure (List Char)
  | 0, cs => failHere .endInString cs
  | _ + 1, [] => failHere .endInString []
  | _ + 1, '"' :: rest => .ok rest
  | fuel + 1, '\\' :: 'u' :: rest => do
    let (_, rest) ← fourHex rest
    skipString fuel rest
  | fuel + 1, '\\' :: rest => do
    let (_, rest) ← escapeSequence rest
    skipString fuel rest
  | fuel + 1, c :: rest =>
    if c.toNat < 0x20 ∧ c ≠ '\x00' then failHere .controlCharacter rest else skipString fuel rest

/-- The text after the exponent of a skipped number, after its letter. -/
def skipExponent (cs : List Char) : Except Failure (List Char) :=
  let cs := match cs with
    | '+' :: cs => cs
    | '-' :: cs => cs
    | cs => cs
  match cs with
  | [] => failHere .invalidNumber []
  | c :: rest => if (digit? c).isSome then .ok (dropDigits rest) else failNext .invalidNumber cs

/-- The text after the fraction and the exponent of a skipped number. -/
def skipFraction : List Char → Except Failure (List Char)
  | '.' :: cs =>
    match cs with
    | [] => failHere .invalidNumber []
    | c :: rest =>
      if (digit? c).isSome then
        match dropDigits rest with
        | 'e' :: cs => skipExponent cs
        | 'E' :: cs => skipExponent cs
        | cs => .ok cs
      else failNext .invalidNumber (c :: rest)
  | 'e' :: cs => skipExponent cs
  | 'E' :: cs => skipExponent cs
  | cs => .ok cs

/-- The text after a skipped number without its sign. -/
def skipNumber : List Char → Except Failure (List Char)
  | [] => failHere .invalidNumber []
  | '0' :: cs =>
    match cs with
    | c :: _ => if (digit? c).isSome then failNext .invalidNumber cs else skipFraction cs
    | [] => .ok []
  | c :: cs =>
    if (digit? c).isSome then skipFraction (dropDigits cs) else failNext .invalidNumber (c :: cs)

mutual

/-- The text after a skipped value. -/
def skipWith (fuel : Nat) (cs : List Char) : Except Failure (List Char) :=
  match fuel with
  | 0 => failHere .endInValue cs
  | fuel + 1 =>
    match dropSpaces cs with
    | [] => failHere .endInValue []
    | 'n' :: rest => (literal .null ['u', 'l', 'l'] rest).map (·.2)
    | 't' :: rest => (literal .null ['r', 'u', 'e'] rest).map (·.2)
    | 'f' :: rest => (literal .null ['a', 'l', 's', 'e'] rest).map (·.2)
    | '-' :: rest => skipNumber rest
    | '"' :: rest => skipString (rest.length + 1) rest
    | '[' :: rest => skipItems fuel false rest
    | '\x7b' :: rest => skipMembers fuel false rest
    | c :: rest =>
      if (digit? c).isSome then skipNumber (c :: rest) else failNext .expectedValue (c :: rest)

/-- The text after the items of a skipped array, of which some have been read if `later`. -/
def skipItems (fuel : Nat) (later : Bool) (cs : List Char) : Except Failure (List Char) :=
  match fuel with
  | 0 => failHere .endInList cs
  | fuel + 1 =>
    match dropSpaces cs with
    | [] => failHere .endInList []
    | ']' :: rest => .ok rest
    | c :: rest =>
      if later then
        if c = ',' then do
          let rest ← skipWith fuel rest
          skipItems fuel true rest
        else failNext .expectedListEnd (c :: rest)
      else do
        let rest ← skipWith fuel (c :: rest)
        skipItems fuel true rest

/-- The text after the members of a skipped object, of which some have been read if `later`. -/
def skipMembers (fuel : Nat) (later : Bool) (cs : List Char) : Except Failure (List Char) :=
  match fuel with
  | 0 => failHere .endInObject cs
  | fuel + 1 =>
    match dropSpaces cs with
    | [] => failHere .endInObject []
    | '\x7d' :: rest => .ok rest
    | c :: rest =>
      if later ∧ c ≠ ',' then failNext .expectedObjectEnd (c :: rest)
      else
        match (if later then dropSpaces rest else c :: rest) with
        | [] => failHere .endInObject []
        | '"' :: rest => do
          let rest ← skipString (rest.length + 1) rest
          let rest ← colon rest
          let rest ← skipWith fuel rest
          skipMembers fuel true rest
        | rest => failNext .keyMustBeString rest

end

/-- The text after a value of any kind. -/
def skipValue (cs : List Char) : Except Failure (List Char) :=
  skipWith (fuelFor cs) cs

/-- Refuses a value that is of another kind than wanted: after it, or before it when it is an array
or an object. -/
def refuseKind {α : Type} (wanted : String) (cs : List Char) : Except Failure α :=
  match cs with
  | '[' :: _ => failHere (.data (Mismatch.kind (.array []) wanted).message) cs
  | '\x7b' :: _ => failHere (.data (Mismatch.kind (.object []) wanted).message) cs
  | cs => do
    let (v, rest) ← valueWith 2 1 cs
    failHere (.data (Mismatch.kind v wanted).message) rest

/-- The value that a check gives, or what it says is wrong, at the end of what has been read. -/
def settled (r : Except Mismatch Json) (rest : List Char) : Except Failure (Json × List Char) :=
  match r with
  | .ok v => .ok (v, rest)
  | .error m => failHere (.data m.message) rest

/-- The text after a brace that closes an object, when there is one. -/
def pastBrace (cs : List Char) : List Char :=
  match dropSpaces cs with
  | '\x7d' :: rest => rest
  | rest => rest

/-- The end of a list whose items have all been read. -/
def listEnd (cs : List Char) : Except Failure (List Char) :=
  match dropSpaces cs with
  | [] => failHere .endInList []
  | ']' :: rest => .ok rest
  | ',' :: rest =>
    match dropSpaces rest with
    | ']' :: rest => failNext .trailingComma (']' :: rest)
    | rest => failNext .trailingCharacters rest
  | rest => failNext .trailingCharacters rest

/-- The member of a record that a key belongs to. -/
def memberOf? (members : List (Label × Shape)) (key : String) : Option (Label × Shape) :=
  members.find? fun m => m.1.isKey key

mutual

/-- A value of a shape, and the text after it. -/
def readShape (fuel depth : Nat) (shape : Shape) (cs : List Char) :
    Except Failure (Json × List Char) :=
  match fuel with
  | 0 => failHere .endInValue cs
  | fuel + 1 =>
    match dropSpaces cs with
    | [] => failHere .endInValue []
    | c :: rest =>
      match shape with
      | .text | .pathText =>
        if c = '"' then (stringBody rest).map fun (s, rest) => (.string s, rest)
        else refuseKind shape.called (c :: rest)
      | .truth =>
        if c = 't' then literal (.bool true) ['r', 'u', 'e'] rest
        else if c = 'f' then literal (.bool false) ['a', 'l', 's', 'e'] rest
        else refuseKind shape.called (c :: rest)
      | .natural _ | .integer =>
        if c = '-' ∨ (digit? c).isSome then do
          let (v, rest) ← valueWith 2 1 (c :: rest)
          settled (shape.accept v) rest
        else refuseKind shape.called (c :: rest)
      | .word words =>
        if c = '"' then do
          let (s, rest) ← stringBody rest
          settled (acceptWord words (.string s)) rest
        else if c = '\x7b' then
          match depth with
          | 0 => failNext .tooDeep (c :: rest)
          | _ + 1 => do
            let (key, rest) ← readShape fuel depth .text rest
            let (key, rest) ← settled (acceptWord words key) rest
            let rest ← colon rest
            match dropSpaces rest with
            | 'n' :: rest =>
              let (_, rest) ← literal .null ['u', 'l', 'l'] rest
              match dropSpaces rest with
              | [] => failHere .endInObject []
              | '\x7d' :: rest => .ok (key, rest)
              | rest => failNext .expectedValue rest
            | [] => failHere .endInValue []
            | rest => refuseKind "unit" rest
        else failNext .expectedValue (c :: rest)
      | .anything => valueWith (fuelFor (c :: rest)) depth (c :: rest)
      | .switch _ | .merged _ _ _ => do
        let (v, rest) ← valueWith (fuelFor (c :: rest)) depth (c :: rest)
        settled (shape.accept v) rest
      | .optional inner =>
        if c = 'n' then literal .null ['u', 'l', 'l'] rest
        else readShape fuel depth inner (c :: rest)
      | .list item =>
        if c = '[' then
          match depth with
          | 0 => failNext .tooDeep (c :: rest)
          | depth + 1 =>
            (readItems fuel depth item true rest).map fun (vs, rest) => (.array vs, rest)
        else refuseKind shape.called (c :: rest)
      | .table value =>
        if c = '\x7b' then
          match depth with
          | 0 => failNext .tooDeep (c :: rest)
          | depth + 1 =>
            (readTable fuel depth value true rest).map fun (vs, rest) => (ofFields vs, rest)
        else refuseKind shape.called (c :: rest)
      | .record name members =>
        if c = '\x7b' then
          match depth with
          | 0 => failNext .tooDeep (c :: rest)
          | depth + 1 => do
            let (got, rest) ← readMembers fuel depth members true [] rest
            settled ((complete (members.map (·.1)) got).map .object) rest
        else if c = '[' then
          match depth with
          | 0 => failNext .tooDeep (c :: rest)
          | depth + 1 => do
            let (got, ended, rest) ← readList fuel depth members true rest
            let rest ← if ended then .ok rest else listEnd rest
            settled ((completeList name (members.map (·.1)) got).map .object) rest
        else refuseKind shape.called (c :: rest)

/-- The items of a list up to its closing bracket. -/
def readItems (fuel depth : Nat) (item : Shape) (first : Bool) (cs : List Char) :
    Except Failure (List Json × List Char) :=
  match fuel with
  | 0 => failHere .endInList cs
  | fuel + 1 => do
    let (more, rest) ← nextItem first cs
    if more then
      let (v, rest) ← readShape fuel depth item rest
      let (vs, rest) ← readItems fuel depth item false rest
      .ok (v :: vs, rest)
    else .ok ([], rest)

/-- The members of an object with any keys, up to its closing brace. -/
def readTable (fuel depth : Nat) (value : Shape) (first : Bool) (cs : List Char) :
    Except Failure (List (String × Json) × List Char) :=
  match fuel with
  | 0 => failHere .endInObject cs
  | fuel + 1 => do
    let (more, rest) ← nextKey first cs
    if more then
      let (key, rest) ← stringBody rest
      let rest ← colon rest
      let (v, rest) ← readShape fuel depth value rest
      let (vs, rest) ← readTable fuel depth value false rest
      .ok ((key, v) :: vs, rest)
    else .ok ([], rest)

/-- The known members of an object up to its closing brace. -/
def readMembers (fuel depth : Nat) (members : List (Label × Shape)) (first : Bool)
    (got : List (String × Json)) (cs : List Char) :
    Except Failure (List (String × Json) × List Char) :=
  match fuel with
  | 0 => failHere .endInObject cs
  | fuel + 1 => do
    let (more, rest) ← nextKey first cs
    if more then
      let (key, rest) ← stringBody rest
      match memberOf? members key with
      | some (label, shape) =>
        if (lookup label.name got).isSome then
          failHere (.data (Mismatch.duplicate label.name).message) (pastBrace rest)
        else do
          let rest ← colon rest
          let (v, rest) ← readShape fuel depth shape rest
          readMembers fuel depth members false ((label.name, v) :: got) rest
      | none => do
        let rest ← colon rest
        let rest ← skipValue rest
        readMembers fuel depth members false got rest
    else .ok (got, rest)

/-- The members of a record that are written as a list, and whether the list has ended. -/
def readList (fuel depth : Nat) (members : List (Label × Shape)) (first : Bool) (cs : List Char) :
    Except Failure (List Json × Bool × List Char) :=
  match fuel with
  | 0 => failHere .endInList cs
  | fuel + 1 =>
    match members with
    | [] => .ok ([], false, cs)
    | (_, shape) :: others => do
      let (more, rest) ← nextItem first cs
      if more then
        let (v, rest) ← readShape fuel depth shape rest
        let (vs, ended, rest) ← readList fuel depth others false rest
        .ok (v :: vs, ended, rest)
      else .ok ([], true, rest)

end

/-- The one value that a text holds, in the normal form of a shape. -/
def Shape.read (shape : Shape) (cs : List Char) : Except Failure Json := do
  let (v, rest) ← readShape (fuelFor cs + 16) maxDepth shape cs
  finish rest
  .ok v

end CodeNav.Json
