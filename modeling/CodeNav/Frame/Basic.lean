import CodeNav.Json.Parser
import CodeNav.Json.Printer
import CodeNav.Width

/-!
# Length-prefixed frames

A frame is the length of a payload in four bytes, the least significant one first, and the payload:
one JSON value in UTF-8. A `Framer` takes the bytes of a stream in pieces of any size and delivers
the value of each complete payload, in order. A payload that is no JSON text, an empty one included,
is dropped and disturbs nothing after it.

## Main definitions

* `Framer`: what has been read of an incomplete frame
* `Delivery`: what a piece of the stream delivers, and how many values it is
* `Framer.deliver`, `Framer.push`: the next piece of the stream
* `Framer.isIdle`: whether the stream stands between two frames
* `Frame.encode`: the frame of a value
* `Frame.decodeAll`: the values of the frames of a whole stream

## Main statements

* `Framer.deliver_nil`: an empty piece changes nothing
-/

namespace CodeNav

namespace Frame

/-- The number of bytes of a length. -/
def lengthSize : Nat := 4

/-- The number that bytes stand for, the least significant byte first. -/
def lengthOf : List UInt8 → Nat
  | [] => 0
  | b :: rest => b.toNat + 256 * lengthOf rest

/-- The four bytes of a number, the least significant byte first. -/
def lengthBytes (n : Nat) : List UInt8 :=
  [UInt8.ofNat n, UInt8.ofNat (n / 256), UInt8.ofNat (n / 65536), UInt8.ofNat (n / 16777216)]

/-- The value of a payload. -/
def payload? (bytes : List UInt8) : Option Json :=
  Json.ofBytes? ⟨bytes.toArray⟩

/-- The frame of a value; nothing when the payload is too long for a length. -/
def encode (value : Json) : Option (List UInt8) :=
  let body := value.compact.toUTF8.data.toList
  if body.length < wordValues 32 then some (lengthBytes body.length ++ body) else none

/-- The values of the frames of a whole stream and the bytes of the incomplete frame at its end. The
payload of each frame is taken as a whole. -/
def decodeAll (bytes : List UInt8) : List Json × List UInt8 :=
  if _h : bytes.length < lengthSize then ([], bytes)
  else
    let size := lengthOf (bytes.take lengthSize)
    let rest := bytes.drop lengthSize
    if rest.length < size then ([], bytes)
    else
      let (values, left) := decodeAll (rest.drop size)
      ((payload? (rest.take size)).toList ++ values, left)
termination_by bytes.length
decreasing_by
  simp only [lengthSize] at *
  simp only [List.length_drop]
  omega

end Frame

/-- What a piece of a stream delivers. -/
structure Delivery where
  values : List Json
  /-- How many values were counted while they were delivered. -/
  count : Nat

namespace Delivery

/-- Nothing is delivered. -/
def nothing : Delivery := ⟨[], 0⟩

/-- What is delivered when a value may have come before. -/
def after (d : Delivery) : Option Json → Delivery
  | some value => ⟨value :: d.values, d.count + 1⟩
  | none => d

end Delivery

/-- The incomplete frame at the end of what has been read of a stream. -/
structure Framer where
  /-- The bytes of an incomplete length. -/
  head : List UInt8
  /-- The length of the payload that is being read. -/
  expected : Option Nat
  /-- The bytes read of that payload. -/
  payload : List UInt8
  deriving DecidableEq, Inhabited

namespace Framer

/-- Nothing has been read. -/
def fresh : Framer := ⟨[], none, []⟩

/-- One round on a piece of the stream: the bytes that complete the length, or the payload, or the
whole piece when it is shorter. Gives the value that was completed, the framer and the bytes that
are left. -/
def round (f : Framer) (bytes : List UInt8) : Option Json × Framer × List UInt8 :=
  match f.expected with
  | none =>
    let take := min (Frame.lengthSize - f.head.length) bytes.length
    let head := f.head ++ bytes.take take
    let rest := bytes.drop take
    if head.length = Frame.lengthSize then
      let size := Frame.lengthOf head
      if size = 0 then (Frame.payload? f.payload, ⟨[], none, []⟩, rest)
      else (none, ⟨[], some size, f.payload⟩, rest)
    else (none, ⟨head, none, f.payload⟩, rest)
  | some size =>
    let take := min (size - f.payload.length) bytes.length
    let payload := f.payload ++ bytes.take take
    let rest := bytes.drop take
    if payload.length = size then (Frame.payload? payload, ⟨f.head, none, []⟩, rest)
    else (none, ⟨f.head, some size, payload⟩, rest)

/-- The next piece of the stream: rounds until nothing of it is left. A round that takes nothing
would be the last one. -/
def deliver (f : Framer) (bytes : List UInt8) : Delivery × Framer :=
  if bytes = [] then (.nothing, f)
  else
    let (value, f, rest) := f.round bytes
    if rest.length < bytes.length then
      let (d, f) := deliver f rest
      (d.after value, f)
    else (Delivery.nothing.after value, f)
termination_by bytes.length

/-- The values that the next piece of the stream delivers. -/
def push (f : Framer) (bytes : List UInt8) : List Json × Framer :=
  let (d, f) := f.deliver bytes
  (d.values, f)

/-- Whether no part of a frame is held. -/
def isIdle (f : Framer) : Bool :=
  f.head.isEmpty && f.expected.isNone

/-- What each piece of a stream delivers. -/
def deliverAll (f : Framer) : List (List UInt8) → List Delivery × Framer
  | [] => ([], f)
  | piece :: pieces =>
    let (d, f) := f.deliver piece
    let (more, f) := f.deliverAll pieces
    (d :: more, f)

/-- An empty piece changes nothing. -/
@[simp]
theorem deliver_nil (f : Framer) : f.deliver [] = (.nothing, f) := by
  unfold deliver
  simp

end Framer

end CodeNav
