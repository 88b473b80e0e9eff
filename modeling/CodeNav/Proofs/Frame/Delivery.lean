import CodeNav.Proofs.Frame.Reading
import Mathlib

/-!
# What a stream delivers in pieces

However a stream is cut into pieces, a framer delivers the values of its complete frames, as if the
stream had been read as a whole. What a framer remembers between two pieces stands for the bytes of
the incomplete frame that the stream ends with: the invariant `Framer.Holds` names these bytes, and
every round moves some bytes of the piece into them or completes a frame with them.

## Main definitions

* `Framer.Holds`: the bytes that a framer stands for
* `Delivery.ofPayloads`: what some complete frames deliver

## Main statements

* `Framer.Holds.round`: what one round does
* `Framer.deliverAll_fresh`: what a stream delivers does not depend on how it is cut
-/

namespace CodeNav

namespace Delivery

/-- What complete frames with some payloads deliver. -/
def ofPayloads (payloads : List (List UInt8)) : Delivery :=
  ⟨payloads.filterMap Frame.payload?, (payloads.filterMap Frame.payload?).length⟩

theorem after_ofPayloads (payload : List UInt8) (payloads : List (List UInt8)) :
    (ofPayloads payloads).after (Frame.payload? payload) = ofPayloads (payload :: payloads) := by
  cases h : Frame.payload? payload <;> simp [ofPayloads, after, h]

end Delivery

namespace Framer

/-- The bytes that have been read of the frame that a framer is in. -/
inductive Holds : Framer → List UInt8 → Prop
  /-- Some bytes of the length, but not all of them. -/
  | head (bytes : List UInt8) (h : bytes.length < Frame.lengthSize) :
      Holds ⟨bytes, none, []⟩ bytes
  /-- The length, and some bytes of the payload, but not all of them. -/
  | payload (head bytes : List UInt8) (hh : head.length = Frame.lengthSize)
      (h : bytes.length < Frame.lengthOf head) :
      Holds ⟨[], some (Frame.lengthOf head), bytes⟩ (head ++ bytes)

theorem holds_fresh : Holds fresh [] :=
  .head [] (by decide)

/-- A framer is idle when it stands for no bytes. -/
theorem Holds.isIdle_iff {f : Framer} {held : List UInt8} (h : f.Holds held) :
    f.isIdle ↔ held = [] := by
  cases h with
  | head bytes h => simp [isIdle]
  | payload head bytes hh h =>
    have hne : head ≠ [] := by
      rintro rfl
      simp [Frame.lengthSize] at hh
    simp [isIdle, hne]

/-- No frame begins with the bytes of an incomplete one. -/
theorem Holds.incomplete {f : Framer} {held : List UInt8} (h : f.Holds held) (payload : List UInt8)
    (hp : payload.length < wordValues 32) : ¬ Frame.ofPayload payload <+: held := by
  rintro ⟨rest, hrest⟩
  have hlen := congrArg List.length hrest
  simp only [Frame.ofPayload, List.length_append, Frame.length_lengthBytes] at hlen
  cases h with
  | head bytes h => omega
  | payload head bytes hh h =>
    -- Both begin with four bytes of a length, so the lengths are the same.
    have hhead : Frame.lengthBytes payload.length = head := by
      rw [Frame.ofPayload, List.append_assoc] at hrest
      exact (List.append_inj hrest (by rw [Frame.length_lengthBytes, hh])).1
    have hsize := Frame.lengthOf_lengthBytes hp
    rw [hhead] at hsize
    rw [List.length_append, hh] at hlen
    omega

/-- What one round does: either the bytes it takes complete a frame, or they are held, too. -/
theorem Holds.round {f : Framer} {held bytes : List UInt8} (h : f.Holds held) (hb : bytes ≠ []) :
    ∃ taken rest, bytes = taken ++ rest ∧ taken ≠ [] ∧
      ((∃ payload, payload.length < wordValues 32 ∧ held ++ taken = Frame.ofPayload payload ∧
          f.round bytes = (Frame.payload? payload, fresh, rest)) ∨
        ∃ g : Framer, g.Holds (held ++ taken) ∧ f.round bytes = (none, g, rest)) := by
  have hpos : 0 < bytes.length := List.length_pos_iff.mpr hb
  cases h with
  | head held hlen =>
    let take := min (Frame.lengthSize - held.length) bytes.length
    have htake : 0 < take := by omega
    refine ⟨bytes.take take, bytes.drop take, (List.take_append_drop _ _).symm,
      List.ne_nil_of_length_pos (by rw [List.length_take]; omega), ?_⟩
    by_cases hfull : (held ++ bytes.take take).length = Frame.lengthSize
    · by_cases hzero : Frame.lengthOf (held ++ bytes.take take) = 0
      · -- An empty payload is complete with its length.
        refine Or.inl ⟨[], by decide, ?_, ?_⟩
        · have hempty : Frame.ofPayload [] = _ := Frame.ofPayload_eq hfull hzero.symm
          rw [hempty, List.append_nil]
        · simp only [Framer.round, take] at hfull hzero ⊢
          rw [if_pos hfull, if_pos hzero]
          rfl
      · refine Or.inr ⟨⟨[], some (Frame.lengthOf (held ++ bytes.take take)), []⟩, ?_, ?_⟩
        · have := Holds.payload (held ++ bytes.take take) [] hfull (Nat.pos_of_ne_zero hzero)
          simpa only [List.append_nil] using this
        · simp only [Framer.round, take] at hfull hzero ⊢
          rw [if_pos hfull, if_neg hzero]
    · refine Or.inr ⟨⟨held ++ bytes.take take, none, []⟩, .head _ ?_, ?_⟩
      · have : (held ++ bytes.take take).length ≤ Frame.lengthSize := by
          rw [List.length_append, List.length_take]
          omega
        omega
      · simp only [Framer.round, take] at hfull ⊢
        rw [if_neg hfull]
  | payload head got hh hlen =>
    let take := min (Frame.lengthOf head - got.length) bytes.length
    have htake : 0 < take := by omega
    refine ⟨bytes.take take, bytes.drop take, (List.take_append_drop _ _).symm,
      List.ne_nil_of_length_pos (by rw [List.length_take]; omega), ?_⟩
    by_cases hfull : (got ++ bytes.take take).length = Frame.lengthOf head
    · refine Or.inl ⟨got ++ bytes.take take, hfull ▸ Frame.lengthOf_lt hh, ?_, ?_⟩
      · rw [Frame.ofPayload_eq hh hfull, List.append_assoc]
      · simp only [Framer.round, take] at hfull ⊢
        rw [if_pos hfull]
        rfl
    · refine Or.inr ⟨⟨[], some (Frame.lengthOf head), got ++ bytes.take take⟩, ?_, ?_⟩
      · rw [List.append_assoc]
        refine .payload head _ hh ?_
        have : (got ++ bytes.take take).length ≤ Frame.lengthOf head := by
          rw [List.length_append, List.length_take]
          omega
        omega
      · simp only [Framer.round, take] at hfull ⊢
        rw [if_neg hfull]

/-- What a piece delivers: the frames that it completes, while the framer holds the bytes after
them. -/
theorem Holds.deliver {f : Framer} {held : List UInt8} (h : f.Holds held) (bytes : List UInt8) :
    ∃ (payloads : List (List UInt8)) (rest : List UInt8), (f.deliver bytes).2.Holds rest ∧
      held ++ bytes = payloads.flatMap Frame.ofPayload ++ rest ∧
      (∀ payload ∈ payloads, payload.length < wordValues 32) ∧
      (f.deliver bytes).1 = .ofPayloads payloads := by
  induction hn : bytes.length using Nat.strongRecOn generalizing f held bytes with
  | ind n ih =>
    by_cases hb : bytes = []
    · subst hb
      exact ⟨[], held, by simpa using h, by simp, by simp, by simp [Delivery.ofPayloads,
        Delivery.nothing]⟩
    · obtain ⟨taken, rest, rfl, htaken, hround⟩ := h.round hb
      have hless : rest.length < (taken ++ rest).length := by
        rw [List.length_append]
        have := List.length_pos_iff.mpr htaken
        omega
      rcases hround with ⟨payload, hp, hframe, hround⟩ | ⟨g, hg, hround⟩
      · obtain ⟨payloads, left, hleft, hsplit, hfits, hvalues⟩ :=
          ih _ (hn ▸ hless) holds_fresh rest rfl
        refine ⟨payload :: payloads, left, ?_, ?_, ?_, ?_⟩
        · rw [Framer.deliver, if_neg hb, hround]
          simpa only [if_pos hless] using hleft
        · rw [← List.append_assoc, hframe, List.flatMap_cons, List.append_assoc, ← hsplit,
            List.nil_append]
        · intro q hq
          rcases List.mem_cons.mp hq with rfl | hq
          · exact hp
          · exact hfits q hq
        · rw [Framer.deliver, if_neg hb, hround]
          simp only [if_pos hless, hvalues, Delivery.after_ofPayloads]
      · obtain ⟨payloads, left, hleft, hsplit, hfits, hvalues⟩ := ih _ (hn ▸ hless) hg rest rfl
        refine ⟨payloads, left, ?_, ?_, hfits, ?_⟩
        · rw [Framer.deliver, if_neg hb, hround]
          simpa only [if_pos hless] using hleft
        · rw [← List.append_assoc, hsplit]
        · rw [Framer.deliver, if_neg hb, hround]
          simp only [if_pos hless, hvalues, Delivery.after]

/-- What the pieces of a stream deliver together. -/
theorem Holds.deliverAll {f : Framer} {held : List UInt8} (h : f.Holds held)
    (pieces : List (List UInt8)) :
    ∃ (payloads : List (List UInt8)) (rest : List UInt8), (f.deliverAll pieces).2.Holds rest ∧
      held ++ pieces.flatten = payloads.flatMap Frame.ofPayload ++ rest ∧
      (∀ payload ∈ payloads, payload.length < wordValues 32) ∧
      (f.deliverAll pieces).1.flatMap (·.values) = payloads.filterMap Frame.payload? ∧
      ((f.deliverAll pieces).1.map (·.count)).sum =
        (payloads.filterMap Frame.payload?).length := by
  induction pieces generalizing f held with
  | nil => exact ⟨[], held, h, by simp, by simp, by simp [Framer.deliverAll],
      by simp [Framer.deliverAll]⟩
  | cons piece pieces ih =>
    obtain ⟨first, between, hbetween, hsplit, hfits, hfirst⟩ := h.deliver piece
    obtain ⟨later, rest, hrest, hsplit', hfits', hvalues, hcounts⟩ := ih hbetween
    refine ⟨first ++ later, rest, hrest, ?_, ?_, ?_, ?_⟩
    · rw [List.flatten_cons, ← List.append_assoc, hsplit, List.append_assoc, hsplit',
        List.flatMap_append, List.append_assoc]
    · intro q hq
      rcases List.mem_append.mp hq with hq | hq
      · exact hfits q hq
      · exact hfits' q hq
    · simp only [Framer.deliverAll, List.flatMap_cons, hfirst, hvalues, List.filterMap_append,
        Delivery.ofPayloads]
    · simp only [Framer.deliverAll, List.map_cons, List.sum_cons, hfirst, hcounts,
        List.filterMap_append, List.length_append, Delivery.ofPayloads]

/-- However a stream is cut into pieces, a fresh framer delivers what is read from the stream as a
whole: the values of the payloads of its complete frames that are JSON texts, in their order. What it
counts is what it delivers, and it is idle in the end exactly when nothing is left of the stream. -/
theorem deliverAll_fresh (pieces : List (List UInt8)) :
    ∃ payloads left, Frame.Reads pieces.flatten payloads left ∧
      Frame.decodeAll pieces.flatten = (payloads.filterMap Frame.payload?, left) ∧
      (fresh.deliverAll pieces).1.flatMap (·.values) = (Frame.decodeAll pieces.flatten).1 ∧
      ((fresh.deliverAll pieces).1.map (·.count)).sum =
        ((fresh.deliverAll pieces).1.flatMap (·.values)).length ∧
      ((fresh.deliverAll pieces).2.isIdle ↔ left = []) := by
  obtain ⟨payloads, left, hleft, hsplit, hfits, hvalues, hcounts⟩ :=
    holds_fresh.deliverAll pieces
  have hreads : Frame.Reads pieces.flatten payloads left := ⟨hsplit, hfits, hleft.incomplete⟩
  have hall := Frame.decodeAll_eq_of_reads hreads
  refine ⟨payloads, left, hreads, hall, ?_, ?_, hleft.isIdle_iff⟩
  · rw [hvalues, hall]
  · rw [hcounts, hvalues]

end Framer

end CodeNav
