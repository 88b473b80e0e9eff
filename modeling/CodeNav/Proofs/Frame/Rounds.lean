import CodeNav.Frame.Basic
import CodeNav.Proofs.Run

/-!
# The rounds of a framer

A framer takes a piece of a stream in rounds, as long as a byte of the piece is left. Before each
round less is held than is waited for: not all bytes of a length, or not all bytes of a payload that
has some. So there is always room for a byte, every round takes one, and the rounds come to an end,
whatever the bytes say.

## Main definitions

* `Framer.Unfilled`: less is held than is waited for
* `Framer.room`: how many bytes a framer waits for
* `Framer.Step`: a round on what is left of a piece

## Main statements

* `Framer.Unfilled.round`: a round leaves less than is waited for
* `Framer.unfilled_of_run`, `Framer.length_le_of_run`: what the rounds on a piece keep, and how many
  there are
* `Framer.exists_run_deliver`: the rounds on a piece come to an end
* `Framer.unfilled_of_deliverAll`: framers that have read any pieces of a stream
-/

namespace CodeNav

/-- What rounds deliver together, and how many values it is. -/
def Delivery.ofRounds (values : List (Option Json)) : Delivery :=
  ⟨values.filterMap id, (values.filterMap id).length⟩

theorem Delivery.after_ofRounds (value : Option Json) (values : List (Option Json)) :
    (ofRounds values).after value = ofRounds (value :: values) := by
  cases value <;> rfl

namespace Framer

/-- Less is held than is waited for: while no payload is expected, some bytes of a length and nothing
of a payload; while one is expected, nothing of a length and not all of the payload. -/
structure Unfilled (f : Framer) : Prop where
  head_lt : f.head.length < Frame.lengthSize
  payload_eq_nil : f.expected = none → f.payload = []
  head_eq_nil : ∀ size, f.expected = some size → f.head = []
  payload_lt : ∀ size, f.expected = some size → f.payload.length < size

theorem unfilled_fresh : fresh.Unfilled where
  head_lt := by decide
  payload_eq_nil _ := rfl
  head_eq_nil _ _ := rfl
  payload_lt _ h := by simp [fresh] at h

/-- How many bytes are missing of the length or of the payload. -/
def room (f : Framer) : Nat :=
  match f.expected with
  | none => Frame.lengthSize - f.head.length
  | some size => size - f.payload.length

variable {f g : Framer} {bytes rest : List UInt8} {t : List (Option Json)}

/-! ### One round -/

theorem Unfilled.room_pos (h : f.Unfilled) : 0 < f.room := by
  rw [room]
  split
  · exact Nat.sub_pos_of_lt h.head_lt
  · rename_i size hsize
    exact Nat.sub_pos_of_lt (h.payload_lt size hsize)

/-- A round takes as many bytes as there is room for, or all there are. -/
theorem rest_round (f : Framer) (bytes : List UInt8) :
    (f.round bytes).2.2 = bytes.drop (min f.room bytes.length) := by
  obtain ⟨head, expected, payload⟩ := f
  cases expected <;> simp only [round, room] <;> split_ifs <;> rfl

/-- A round takes at least one byte. -/
theorem Unfilled.length_round_lt (h : f.Unfilled) (hb : bytes ≠ []) :
    (f.round bytes).2.2.length < bytes.length := by
  have hroom := h.room_pos
  have hbytes := List.length_pos_iff.mpr hb
  rw [rest_round, List.length_drop]
  omega

/-- What is held of a length or a payload, and what a round adds to it, is not more than there is. -/
theorem length_append_take_le {held : List UInt8} {size : Nat} (h : held.length < size)
    (bytes : List UInt8) :
    (held ++ bytes.take (min (size - held.length) bytes.length)).length ≤ size := by
  rw [List.length_append, List.length_take]
  omega

/-- A round leaves less than is waited for, whether it fills the length, with or without a payload
after it, or the payload, which may be no text, or neither. -/
theorem Unfilled.round (h : f.Unfilled) (bytes : List UInt8) : (f.round bytes).2.1.Unfilled := by
  obtain ⟨head, expected, payload⟩ := f
  obtain ⟨hhead, hnone, hnil, hlt⟩ := h
  cases expected with
  | none =>
    obtain rfl : payload = [] := hnone rfl
    simp only [Framer.round]
    split_ifs with hfull hzero
    · exact unfilled_fresh
    · exact ⟨Nat.zero_lt_succ _, nofun, fun _ _ ↦ rfl, fun size hsize ↦
        Option.some.inj hsize ▸ Nat.pos_of_ne_zero hzero⟩
    · exact ⟨Nat.lt_of_le_of_ne (length_append_take_le hhead bytes) hfull, fun _ ↦ rfl, nofun, nofun⟩
  | some size =>
    obtain rfl : head = [] := hnil size rfl
    simp only [Framer.round]
    split_ifs with hfull
    · exact unfilled_fresh
    · refine ⟨Nat.zero_lt_succ _, nofun, fun _ _ ↦ rfl, fun size' hsize ↦ ?_⟩
      obtain rfl := Option.some.inj hsize
      exact Nat.lt_of_le_of_ne (length_append_take_le (hlt _ rfl) bytes) hfull

/-! ### All rounds on a piece -/

/-- A round on what is left of a piece, and what it delivers. There is none when nothing is left. -/
inductive Step : Framer × List UInt8 → Option Json → Framer × List UInt8 → Prop
  | round (f : Framer) {bytes : List UInt8} (h : bytes ≠ []) :
      Step (f, bytes) (f.round bytes).1 (f.round bytes).2

/-- Less is held than is waited for before every round on a piece, and after the last one. -/
theorem unfilled_of_run (hf : f.Unfilled) (h : Run Step (f, bytes) t (g, rest)) : g.Unfilled := by
  refine Run.invariant (P := fun _ s ↦ s.1.Unfilled) hf ?_ h
  rintro - - e v - hu ⟨u, -⟩
  exact hu.round _

/-- There are at most as many rounds as bytes that have been taken. -/
theorem length_le_of_run (hf : f.Unfilled) (h : Run Step (f, bytes) t (g, rest)) :
    t.length + rest.length ≤ bytes.length := by
  refine Run.invariant (P := fun t s ↦ t.length + s.2.length ≤ bytes.length) (by simp) ?_ h
  rintro t - e v hrun hle ⟨u, hne⟩
  have hless := (unfilled_of_run hf hrun).length_round_lt hne
  rw [List.length_append, List.length_singleton]
  dsimp only at hle
  omega

/-- A piece is delivered round by round: there is always less left for the next round. -/
theorem Unfilled.deliver_eq (hf : f.Unfilled) (hb : bytes ≠ []) :
    f.deliver bytes =
      (((f.round bytes).2.1.deliver (f.round bytes).2.2).1.after (f.round bytes).1,
        ((f.round bytes).2.1.deliver (f.round bytes).2.2).2) := by
  rw [Framer.deliver, if_neg hb]
  exact if_pos (hf.length_round_lt hb)

/-- The rounds on a piece come to an end, when nothing of it is left, with what it delivers. -/
theorem exists_run_deliver (hf : f.Unfilled) (bytes : List UInt8) :
    ∃ t, Run Step (f, bytes) t ((f.deliver bytes).2, []) ∧
      (f.deliver bytes).1 = .ofRounds t := by
  induction hn : bytes.length using Nat.strongRecOn generalizing f bytes with
  | ind n ih =>
    by_cases hb : bytes = []
    · subst hb
      rw [deliver_nil]
      exact ⟨[], .nil, rfl⟩
    · have hless := hf.length_round_lt hb
      obtain ⟨t, hrun, hvalues⟩ := ih _ (hn ▸ hless) (hf.round bytes) (f.round bytes).2.2 rfl
      refine ⟨(f.round bytes).1 :: t, ?_, ?_⟩
      · rw [hf.deliver_eq hb]
        exact (Run.nil.snoc (.round f hb)).append hrun
      · rw [hf.deliver_eq hb, hvalues, Delivery.after_ofRounds]

/-! ### All pieces of a stream -/

theorem Unfilled.deliver (hf : f.Unfilled) (bytes : List UInt8) : (f.deliver bytes).2.Unfilled :=
  have ⟨_, hrun, _⟩ := exists_run_deliver hf bytes
  unfilled_of_run hf hrun

theorem Unfilled.deliverAll (hf : f.Unfilled) (pieces : List (List UInt8)) :
    (f.deliverAll pieces).2.Unfilled := by
  induction pieces generalizing f with
  | nil => exact hf
  | cons piece pieces ih => exact ih (hf.deliver piece)

/-- However much of a stream a framer has read, and in whatever pieces, it holds less than four bytes
of a length, nothing of a payload while none is expected, and else nothing of a length and less than
the payload, which therefore has some bytes. So, whatever the next piece is: before each round no more
is held than the length or the payload has; each round takes at least one byte, so that there are no
more rounds than bytes; and the rounds come to an end, with what the piece delivers. -/
theorem unfilled_of_deliverAll (pieces : List (List UInt8)) :
    let f := (fresh.deliverAll pieces).2
    f.head.length < Frame.lengthSize ∧ (f.expected = none → f.payload = []) ∧
    (∀ size, f.expected = some size → f.head = [] ∧ f.payload.length < size ∧ 0 < size) ∧
    ∀ bytes,
      (∀ t g rest, Run Step (f, bytes) t (g, rest) →
        g.head.length ≤ Frame.lengthSize ∧
        (∀ size, g.expected = some size → g.payload.length ≤ size) ∧
        (rest ≠ [] → (g.round rest).2.2.length < rest.length) ∧ t.length ≤ bytes.length) ∧
      ∃ t, Run Step (f, bytes) t ((f.deliver bytes).2, []) ∧ (f.deliver bytes).1 = .ofRounds t := by
  intro f
  have hf : f.Unfilled := unfilled_fresh.deliverAll pieces
  refine ⟨hf.head_lt, hf.payload_eq_nil, fun size hsize ↦ ?_, fun bytes ↦
    ⟨fun t g rest hrun ↦ ?_, exists_run_deliver hf bytes⟩⟩
  · have hlt := hf.payload_lt size hsize
    exact ⟨hf.head_eq_nil size hsize, hlt, by omega⟩
  · have hg := unfilled_of_run hf hrun
    have hle := length_le_of_run hf hrun
    exact ⟨Nat.le_of_lt hg.head_lt, fun size hsize ↦ Nat.le_of_lt (hg.payload_lt size hsize),
      hg.length_round_lt, by omega⟩

end Framer

end CodeNav
