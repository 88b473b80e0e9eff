import CodeNav.Proofs.Frame.Delivery
import CodeNav.Proofs.Json.Rereading
import CodeNav.Proofs.Text.Split
import CodeNav.Proofs.Text.Utf8

/-!
# What is sent arrives

A value without real numbers whose nesting a reader allows is read back from its payload, and has a frame
as long as its text is not too long for a length. So a stream that consists of the frames of some values
delivers these values, however it is cut into pieces.

## Main definitions

* `Frame.body`: the payload of a value
* `Frame.Sendable`: a value that can be sent, and can be read

## Main statements

* `Json.escape_eq_singleton_iff`: which characters stand for themselves in a string
* `Framer.deliverAll_encode`: what is sent is delivered
-/

namespace CodeNav

namespace Json

/-- A character is escaped only if it is the quote, the backslash or a control character. -/
theorem escape_eq_singleton_iff (c : Char) :
    escape c = [c] ↔ c ≠ '"' ∧ c ≠ '\\' ∧ 0x20 ≤ c.toNat := by
  refine ⟨fun h ↦ ?_, fun ⟨hquote, hback, hplain⟩ ↦ by simp [escape, hquote, hback, hplain]⟩
  rcases escape_cases c with ⟨-, hplain⟩ | ⟨e, he, hread⟩
  · exact hplain
  · -- No escape is empty.
    obtain ⟨rfl, rfl⟩ := List.cons.inj (he.symm.trans h)
    cases hread []

end Json

namespace Frame

/-- The payload of a value. -/
def body (v : Json) : List UInt8 := v.compact.toUTF8.data.toList

/-- A value that can be sent and read: without real numbers, with integers of 64 bits, with the members of
objects in the order of their keys, not nested too deep, and with a text that is not too long. -/
structure Sendable (v : Json) : Prop where
  canonical : v.Canonical
  depth_le : v.depth ≤ Json.maxDepth
  length_lt : (body v).length < wordValues 32

variable {v : Json}

theorem payload?_body (h : Sendable v) : payload? (body v) = some v := by
  rw [payload?, body, Array.toArray_toList]
  exact Json.ofBytes?_compact h.canonical h.depth_le

theorem encode_eq_ofPayload (h : Sendable v) : encode v = some (ofPayload (body v)) :=
  if_pos h.length_lt

/-- A stream that consists of frames is read as the values of their payloads. -/
theorem decodeAll_flatMap_ofPayload {values : List Json} (h : ∀ v ∈ values, Sendable v) :
    decodeAll ((values.map body).flatMap ofPayload) = (values, []) := by
  have hreads : Reads ((values.map body).flatMap ofPayload) (values.map body) [] := by
    refine ⟨(List.append_nil _).symm, fun payload hp ↦ ?_, fun payload _ ⟨rest, hrest⟩ ↦ ?_⟩
    · obtain ⟨v, hv, rfl⟩ := List.mem_map.mp hp
      exact (h v hv).length_lt
    · have hlen := congrArg List.length hrest
      simp [ofPayload, lengthSize] at hlen
  rw [decodeAll_eq_of_reads hreads, List.filterMap_map]
  have hvalues : values.filterMap (payload? ∘ body) = values.filterMap some :=
    List.filterMap_congr fun v hv ↦ payload?_body (h v hv)
  rw [hvalues, List.filterMap_some]

end Frame

namespace Framer

/-- Every value that can be sent has a frame. It begins with four bytes, the number of the bytes after
them, and these are the text of the value: the members of objects in the order of the bytes of their keys,
and in strings only quotes, backslashes and control characters escaped. A fresh framer that is fed the frames
of some values, however cut into pieces, delivers exactly these values in their order, and is idle in the
end. -/
theorem deliverAll_encode {values : List Json} (hvalues : ∀ v ∈ values, Frame.Sendable v) :
    (∀ v ∈ values, ∃ frame, Frame.encode v = some frame ∧ Frame.lengthSize ≤ frame.length ∧
      Frame.lengthOf (frame.take Frame.lengthSize) = (frame.drop Frame.lengthSize).length ∧
      frame.drop Frame.lengthSize = v.compact.toUTF8.data.toList) ∧
    (∀ k l : String, k < l ↔ k.toUTF8.data.toList < l.toUTF8.data.toList) ∧
    (∀ c, Json.escape c = [c] ↔ c ≠ '"' ∧ c ≠ '\\' ∧ 0x20 ≤ c.toNat) ∧
    ∃ frames, values.mapM Frame.encode = some frames ∧
      ∀ pieces, pieces.flatten = frames.flatten →
        (fresh.deliverAll pieces).1.flatMap (·.values) = values ∧
        (fresh.deliverAll pieces).2.isIdle = true := by
  refine ⟨fun v hv ↦ ?_, Text.lt_iff_toUTF8_lt, Json.escape_eq_singleton_iff,
    values.map (Frame.ofPayload ∘ Frame.body), ?_, fun pieces hpieces ↦ ?_⟩
  · refine ⟨_, Frame.encode_eq_ofPayload (hvalues v hv), by simp [Frame.ofPayload], ?_, ?_⟩
    · have htake := Frame.take_ofPayload_append (Frame.body v) []
      have hdrop := Frame.drop_ofPayload_append (Frame.body v) []
      rw [List.append_nil] at htake hdrop
      rw [htake, hdrop, List.append_nil, Frame.lengthOf_lengthBytes (hvalues v hv).length_lt]
    · simpa [Frame.body] using Frame.drop_ofPayload_append (Frame.body v) []
  · exact Text.mapM_eq_some_iff.mpr <| List.forall₂_map_right_iff.mpr
      (List.forall₂_same.mpr fun v hv ↦ Frame.encode_eq_ofPayload (hvalues v hv))
  · obtain ⟨payloads, rest, hrest, hsplit, hfits, hdelivered, -⟩ := holds_fresh.deliverAll pieces
    have hstream : pieces.flatten = (values.map Frame.body).flatMap Frame.ofPayload := by
      rw [hpieces, List.flatMap_map, List.flatMap_def]
      rfl
    have hread := Frame.decodeAll_eq_of_reads ⟨hsplit, hfits, hrest.incomplete⟩
    rw [List.nil_append, hstream, Frame.decodeAll_flatMap_ofPayload hvalues] at hread
    obtain ⟨hvalues', hleft⟩ := Prod.mk.inj hread
    exact ⟨hdelivered.trans hvalues'.symm, hrest.isIdle_iff.mpr hleft.symm⟩

/-- A value with escapes, letters outside ASCII, and the least and the greatest integer. -/
def letter : Json :=
  .object [("a\n", .array [.int (-9223372036854775808), .string "\"\\\x1f"]),
    ("é😀", .int 18446744073709551615)]

/-- The letter arrives, and a small value after it, when they are sent byte by byte. -/
theorem deliverAll_letter : (∀ v ∈ [letter, .null], Frame.Sendable v) ∧
    ∃ frames, [letter, .null].mapM Frame.encode = some frames ∧
      (fresh.deliverAll (frames.flatten.map fun b ↦ [b])).1.flatMap (·.values) = [letter, .null] ∧
      (fresh.deliverAll (frames.flatten.map fun b ↦ [b])).2.isIdle = true := by
  have hletter : Frame.Sendable letter := by
    refine ⟨?_, by decide, by decide +kernel⟩
    have hkeys : "a\n" < "é😀" := by decide
    simp only [letter, Json.Canonical, Json.CanonicalItems, Json.CanonicalFields]
    exact ⟨by simp, ⟨⟨by decide, by decide⟩, trivial, trivial⟩, fun a ha ↦ Option.some.inj ha ▸ hkeys,
      ⟨by decide, by decide⟩, trivial⟩
  have hnull : Frame.Sendable .null := ⟨trivial, by decide, by decide +kernel⟩
  have hvalues : ∀ v ∈ [letter, .null], Frame.Sendable v := by simp [hletter, hnull]
  obtain ⟨-, -, -, frames, hframes, harrives⟩ := deliverAll_encode hvalues
  exact ⟨hvalues, frames, hframes, harrives _ (by rw [← List.flatMap_def, List.flatMap_singleton'])⟩

end Framer

end CodeNav
