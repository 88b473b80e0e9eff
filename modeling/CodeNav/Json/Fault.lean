/-!
# What can be wrong with a JSON text

A reader that stops reports a `Fault` and the place where it stopped. The place is kept as the part
of the text that was still unread, so that readers need not count; `Failure.locate` turns it into a
line and a column. Lines are counted from one, columns are bytes since the last line break.

## Main definitions

* `Fault`: the causes, with their wording in `Fault.message`
* `Failure`: a cause and a place
* `Failure.locate`, `Failure.message`: the place as line and column, and the full wording
-/

namespace CodeNav.Json

/-- The reasons for which a JSON text is refused. -/
inductive Fault where
  | endInValue
  | endInList
  | endInObject
  | endInString
  | expectedColon
  | expectedListEnd
  | expectedObjectEnd
  | expectedIdent
  | expectedValue
  | invalidEscape
  | invalidNumber
  | numberOutOfRange
  | controlCharacter
  | keyMustBeString
  | loneSurrogate
  | trailingComma
  | trailingCharacters
  | endOfHexEscape
  | tooDeep
  /-- The text is well formed but not what the reader wants. -/
  | data (message : String)
  deriving DecidableEq, Inhabited

/-- The wording of a fault. -/
def Fault.message : Fault → String
  | endInValue => "EOF while parsing a value"
  | endInList => "EOF while parsing a list"
  | endInObject => "EOF while parsing an object"
  | endInString => "EOF while parsing a string"
  | expectedColon => "expected `:`"
  | expectedListEnd => "expected `,` or `]`"
  | expectedObjectEnd => "expected `,` or `\x7d`"
  | expectedIdent => "expected ident"
  | expectedValue => "expected value"
  | invalidEscape => "invalid escape"
  | invalidNumber => "invalid number"
  | numberOutOfRange => "number out of range"
  | controlCharacter => "control character (\\u0000-\\u001F) found while parsing a string"
  | keyMustBeString => "key must be a string"
  | loneSurrogate => "lone leading surrogate in hex escape"
  | trailingComma => "trailing comma"
  | trailingCharacters => "trailing characters"
  | endOfHexEscape => "unexpected end of hex escape"
  | tooDeep => "recursion limit exceeded"
  | data message => message

/-- A fault and where it was found: `ahead` bytes into the unread text `rest`, or at its end when it
is shorter than that. -/
structure Failure where
  fault : Fault
  rest : List Char
  ahead : Nat
  deriving Inhabited

/-- The number of bytes of a text in UTF-8. -/
def byteCount (cs : List Char) : Nat :=
  cs.foldl (fun count c => count + c.utf8Size) 0

/-- Line and column after the first `count` bytes of a text, when `line` and `column` are those of
its beginning. -/
def position (line column : Nat) : Nat → List Char → Nat × Nat
  | _, [] => (line, column)
  | count, c :: cs =>
    if count < c.utf8Size then (line, column + count)
    else if c = '\n' then position (line + 1) 0 (count - 1) cs
    else position line (column + c.utf8Size) (count - c.utf8Size) cs

/-- Line and column of a failure in the text it was found in. -/
def Failure.locate (f : Failure) (text : List Char) : Nat × Nat :=
  let total := byteCount text
  position 1 0 (min total (total - byteCount f.rest + f.ahead)) text

/-- The wording of a failure in the text it was found in. -/
def Failure.message (f : Failure) (text : List Char) : String :=
  let (line, column) := f.locate text
  s!"{f.fault.message} at line {line} column {column}"

/-- Refuses a text at the first unread byte. -/
def failHere {α : Type} (fault : Fault) (rest : List Char) : Except Failure α :=
  .error ⟨fault, rest, 0⟩

/-- Refuses a text after the next byte. -/
def failNext {α : Type} (fault : Fault) (rest : List Char) : Except Failure α :=
  .error ⟨fault, rest, 1⟩

end CodeNav.Json
