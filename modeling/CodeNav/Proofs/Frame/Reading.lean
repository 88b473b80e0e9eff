import CodeNav.Frame.Basic

/-!
# Reading a stream of frames

A stream consists of complete frames and of a rest that no frame begins. The frames and the rest are
determined by the stream, and reading the stream as a whole finds them: `decodeAll` gives the values
of those payloads that are JSON texts, in their order.

## Main definitions

* `Frame.ofPayload`: the frame of a payload
* `Frame.Reads`: the payloads of the complete frames of a stream, and what is left of it

## Main statements

* `Frame.lengthBytes_lengthOf`, `Frame.lengthOf_lengthBytes`: four bytes are a number below `2 ^ 32`
* `Frame.decodeAll_eq_of_reads`: what reading a whole stream gives
-/

namespace CodeNav

namespace Frame

/-! ### Lengths -/

@[simp]
theorem length_lengthBytes (n : Nat) : (lengthBytes n).length = lengthSize := rfl

/-- The number of four bytes is below `2 ^ 32`. -/
theorem lengthOf_lt {head : List UInt8} (h : head.length = lengthSize) :
    lengthOf head < wordValues 32 := by
  match head, h with
  | [a, b, c, d], _ =>
    have ha := a.toNat_lt
    have hb := b.toNat_lt
    have hc := c.toNat_lt
    have hd := d.toNat_lt
    have hw : wordValues 32 = 4294967296 := rfl
    simp only [lengthOf, hw]
    omega

/-- Four bytes are written as the number they stand for. -/
theorem lengthBytes_lengthOf {head : List UInt8} (h : head.length = lengthSize) :
    lengthBytes (lengthOf head) = head := by
  match head, h with
  | [a, b, c, d], _ =>
    have ha := a.toNat_lt
    have hb := b.toNat_lt
    have hc := c.toNat_lt
    have hd := d.toNat_lt
    simp only [lengthBytes, lengthOf, List.cons.injEq, and_true, ← UInt8.toNat_inj,
      UInt8.toNat_ofNat']
    refine ⟨?_, ?_, ?_, ?_⟩ <;> omega

/-- A number below `2 ^ 32` is read from its four bytes. -/
theorem lengthOf_lengthBytes {n : Nat} (h : n < wordValues 32) :
    lengthOf (lengthBytes n) = n := by
  have hw : wordValues 32 = 4294967296 := rfl
  simp only [lengthBytes, lengthOf, UInt8.toNat_ofNat']
  omega

/-! ### Frames -/

/-- The frame of a payload. -/
def ofPayload (payload : List UInt8) : List UInt8 :=
  lengthBytes payload.length ++ payload

theorem ofPayload_eq {head payload : List UInt8} (hh : head.length = lengthSize)
    (hp : payload.length = lengthOf head) : ofPayload payload = head ++ payload := by
  rw [ofPayload, hp, lengthBytes_lengthOf hh]

/-- The payloads of the complete frames at the beginning of a stream, and what is left of it. -/
structure Reads (stream : List UInt8) (payloads : List (List UInt8)) (left : List UInt8) :
    Prop where
  stream_eq : stream = payloads.flatMap ofPayload ++ left
  fits : ∀ payload ∈ payloads, payload.length < wordValues 32
  /-- What is left is not a complete frame, with or without something after it. -/
  incomplete : ∀ payload, payload.length < wordValues 32 → ¬ ofPayload payload <+: left

theorem take_ofPayload_append (payload rest : List UInt8) :
    (ofPayload payload ++ rest).take lengthSize = lengthBytes payload.length := by
  rw [ofPayload, List.append_assoc, List.take_left' (length_lengthBytes _)]

theorem drop_ofPayload_append (payload rest : List UInt8) :
    (ofPayload payload ++ rest).drop lengthSize = payload ++ rest := by
  rw [ofPayload, List.append_assoc, List.drop_left' (length_lengthBytes _)]

/-- A frame in front of a stream gives its value, and the rest is read as before. -/
theorem decodeAll_ofPayload_append {payload : List UInt8} (h : payload.length < wordValues 32)
    (rest : List UInt8) :
    decodeAll (ofPayload payload ++ rest) =
      ((payload? payload).toList ++ (decodeAll rest).1, (decodeAll rest).2) := by
  have hlen : ¬ (ofPayload payload ++ rest).length < lengthSize := by
    simp only [ofPayload, List.length_append, length_lengthBytes]
    omega
  have hrest : ¬ (payload ++ rest).length < payload.length := by
    simp only [List.length_append]
    omega
  rw [decodeAll, dif_neg hlen]
  simp only [take_ofPayload_append, drop_ofPayload_append, lengthOf_lengthBytes h, if_neg hrest,
    List.drop_left, List.take_left]

/-- Nothing is read from a stream that no frame begins. -/
theorem decodeAll_of_incomplete {left : List UInt8}
    (h : ∀ payload, payload.length < wordValues 32 → ¬ ofPayload payload <+: left) :
    decodeAll left = ([], left) := by
  rw [decodeAll]
  split
  · rfl
  · rename_i hlen
    have hh : (left.take lengthSize).length = lengthSize := by
      rw [List.length_take]
      omega
    simp only
    split
    · rfl
    · rename_i hsize
      -- The bytes after the length would be enough for a frame.
      let payload := (left.drop lengthSize).take (lengthOf (left.take lengthSize))
      have hp : payload.length = lengthOf (left.take lengthSize) := by
        rw [List.length_take]
        omega
      have hframe : ofPayload payload = left.take lengthSize ++ payload := ofPayload_eq hh hp
      refine absurd ?_ (h payload (hp ▸ lengthOf_lt hh))
      refine ⟨(left.drop lengthSize).drop (lengthOf (left.take lengthSize)), ?_⟩
      rw [hframe, List.append_assoc, List.take_append_drop, List.take_append_drop]

/-- Reading a whole stream gives the values of its complete frames, and the rest. -/
theorem decodeAll_eq_of_reads {stream left : List UInt8} {payloads : List (List UInt8)}
    (h : Reads stream payloads left) :
    decodeAll stream = (payloads.filterMap payload?, left) := by
  obtain ⟨rfl, hfits, hleft⟩ := h
  induction payloads with
  | nil => exact decodeAll_of_incomplete hleft
  | cons payload payloads ih =>
    have hp := hfits payload List.mem_cons_self
    have hrest := ih fun q hq ↦ hfits q (List.mem_cons_of_mem _ hq)
    rw [List.flatMap_cons, List.append_assoc, decodeAll_ofPayload_append hp, hrest,
      List.filterMap_cons]
    cases payload? payload <;> rfl

end Frame

end CodeNav
