import CodeNav.Json.Parser
import CodeNav.Json.Printer
import CodeNav.Text.Blank
import CodeNav.Text.Letters
import CodeNav.Text.Split
import CodeNav.Text.Utf8
import CodeNav.Width

/-!
# The connection to a language server

Messages to and from a server are JSON values, each after a header that tells its length in bytes.
A header is made of lines; the first line with nothing but carriage returns and the line end closes
it, and the last line that gives a length decides. Whatever does not fit stops the reader for good.
Every length is taken to fit in memory.

## Main definitions

* `Wire`: what has been written to a server, and what it has written that is still unread
* `Wire.frame`: the bytes of a message
* `Decoder`: a reader of messages, byte by byte
* `Decoder.feed`: the next message in some bytes
-/

namespace CodeNav

/-- The two streams of a server. -/
structure Wire where
  /-- All messages that were written to the server, in their order. -/
  written : List Json
  /-- Whether the server still takes messages. -/
  accepts : Bool
  /-- Bytes from the server that are still unread. -/
  incoming : List UInt8
  /-- Whether the server writes nothing more. -/
  ended : Bool
  deriving Inhabited

namespace Wire

/-- The streams of a server that was just started. -/
def fresh : Wire := ⟨[], true, [], false⟩

/-- The bytes of a message with its header. -/
def frame (message : Json) : List UInt8 :=
  let body := Text.utf8Bytes message.compact.toList
  Text.utf8Bytes ("Content-Length: " ++ toString body.length ++ "\r\n\r\n").toList ++ body

/-- Writes a message, unless the server takes none. -/
def write (w : Wire) (message : Json) : Option Wire :=
  if w.accepts then some { w with written := w.written ++ [message] } else none

end Wire

/-- A reader of a server's messages. -/
inductive Decoder where
  /-- In a header: the bytes of the line so far, the last one first, and the length given so far. -/
  | header (line : List UInt8) (length : Option Nat)
  /-- In a message: its bytes so far, the last one first, and how many are missing. -/
  | body (got : List UInt8) (missing : Nat)
  | stopped
  deriving DecidableEq, Inhabited

namespace Decoder

/-- The reader before a message. -/
def fresh : Decoder := .header [] none

/-- The value of decimal digits, when there are any and nothing else. -/
def digits? (cs : List Char) : Option Nat :=
  if cs = [] then none
  else
    cs.foldl (fun acc c => acc.bind fun n => (Json.digit? c).map fun d => n * 10 + d) (some 0)

/-- A length, which may be written with a plus sign. -/
def length? (cs : List Char) : Option Nat :=
  let digits := match cs with
    | '+' :: rest => rest
    | cs => cs
  (digits? digits).filter (· < wordValues 64)

/-- The name of the header line that gives the length. -/
def lengthName : String := "content-length"

/-- The length after a header line: that of the line if it gives one, which may be none. -/
def afterLine (line : List Char) (length : Option Nat) : Option Nat :=
  match Text.splitOnce [':'] line with
  | some (name, value) =>
    if Text.sameLetters (String.ofList (Text.trim name)) lengthName then length? (Text.trim value)
    else length
  | none => length

/-- A header line without its line end. -/
def withoutLineEnd (cs : List Char) : List Char :=
  (cs.reverse.dropWhile fun c => c = '\r' || c = '\n').reverse

/-- The reader after a whole header line. -/
def lineEnd (line : List UInt8) (length : Option Nat) : Decoder :=
  match Text.utf8Text? line with
  | none => .stopped
  | some text =>
    match withoutLineEnd text.toList with
    | [] =>
      match length with
      | none => .stopped
      | some 0 => .stopped
      | some n => .body [] n
    | cs => .header [] (afterLine cs length)

/-- The reader after one more byte, with the message that the byte completes. -/
def step (d : Decoder) (b : UInt8) : Decoder × Option Json :=
  match d with
  | .header line length =>
    if b = 0x0A then (lineEnd (b :: line).reverse length, none)
    else (.header (b :: line) length, none)
  | .body got missing =>
    if missing ≤ 1 then
      match Json.ofBytes? ⟨(b :: got).reverse.toArray⟩ with
      | some message => (.fresh, some message)
      | none => (.stopped, none)
    else (.body (b :: got) (missing - 1), none)
  | .stopped => (.stopped, none)

/-- The reader after the bytes up to the next message, with the message and the bytes that follow
it. -/
def feed (d : Decoder) : List UInt8 → Decoder × Option Json × List UInt8
  | [] => (d, none, [])
  | b :: rest =>
    match d.step b with
    | (d, some message) => (d, some message, rest)
    | (d, none) => feed d rest

end Decoder

end CodeNav
