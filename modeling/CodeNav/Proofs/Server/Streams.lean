import CodeNav.Proofs.Server.Headers

/-!
# What a server's output says

The output of a server begins with whole messages: lines of a header, an empty line, and as many bytes as
the header says. After them comes the beginning of a message that is not complete yet, or something that
makes no sense and ends the reading for good. This depends on the bytes alone, and it is what a reader
finds that takes them one by one.

## Main definitions

* `Wire.IsMessage`: the bytes of a message
* `Wire.Unfinished`, `Wire.Broken`: what may follow the messages
* `Wire.Reads`: the messages of a stream, and whether they are followed by something that makes no sense
* `Decoder.hear`: what a reader takes from some bytes

## Main statements

* `Decoder.hear_of_reads`: the reader finds the messages of a stream
* `Decoder.reads_hear`: what the reader finds are the messages of the stream
* `Decoder.existsUnique_reads`: a stream has these messages and no others
-/

namespace CodeNav

namespace Wire

open Header (IsEmptyLine Decides)

/-- Bytes that end with the only line feed among them. -/
def IsLine (bytes : List UInt8) : Prop :=
  ∃ front, bytes = front ++ [0x0A] ∧ 0x0A ∉ front

/-- The bytes of a line of a header. It is text, and there is something in it. -/
structure IsField (bytes : List UInt8) (line : List Char) : Prop where
  isLine : IsLine bytes
  text : Text.utf8Text? bytes = some (String.ofList line)
  solid : ¬ IsEmptyLine line

/-- The bytes of some lines of a header. -/
def Fields (bytes : List UInt8) (lines : List (List Char)) : Prop :=
  ∃ parts, bytes = parts.flatten ∧ List.Forall₂ IsField parts lines

/-- The bytes of a header with its lines. An empty line closes it. -/
def IsHeader (bytes : List UInt8) (lines : List (List Char)) : Prop :=
  ∃ fields close line, bytes = fields ++ close ∧ Fields fields lines ∧ IsLine close ∧
    Text.utf8Text? close = some (String.ofList line) ∧ IsEmptyLine line

/-- The bytes of a message: a header, and as many bytes of JSON as it says. -/
def IsMessage (bytes : List UInt8) (message : Json) : Prop :=
  ∃ header body lines, bytes = header ++ body ∧ IsHeader header lines ∧ Decides lines body.length ∧
    Json.ofBytes? ⟨body.toArray⟩ = some message

/-- The beginning of a message. -/
inductive Unfinished : List UInt8 → Prop
  | header {fields line : List UInt8} {lines : List (List Char)} (h : Fields fields lines)
      (hline : 0x0A ∉ line) : Unfinished (fields ++ line)
  | body {header body : List UInt8} {lines : List (List Char)} {n : Nat} (h : IsHeader header lines)
      (hn : Decides lines n) (hbody : body.length < n) : Unfinished (header ++ body)

/-- What is no message: a line of a header that is not text, a header without a length, or a body that is
not JSON. -/
inductive Broken : List UInt8 → Prop
  | noText {fields line : List UInt8} {lines : List (List Char)} (h : Fields fields lines)
      (hline : IsLine line) (htext : Text.utf8Text? line = none) : Broken (fields ++ line)
  | noLength {header : List UInt8} {lines : List (List Char)} (h : IsHeader header lines)
      (hn : ∀ n, ¬ Decides lines n) : Broken header
  | noJson {header body : List UInt8} {lines : List (List Char)} (h : IsHeader header lines)
      (hn : Decides lines body.length) (hbody : Json.ofBytes? ⟨body.toArray⟩ = none) :
      Broken (header ++ body)

/-- The messages of a stream, and whether the stream goes on after them with something that makes no
sense. -/
inductive Reads (stream : List UInt8) (messages : List Json) : Bool → Prop
  | unfinished {frames : List (List UInt8)} {left : List UInt8} (hstream : stream = frames.flatten ++ left)
      (hframes : List.Forall₂ IsMessage frames messages) (hleft : Unfinished left) :
      Reads stream messages false
  | broken {frames : List (List UInt8)} {broken rest : List UInt8}
      (hstream : stream = frames.flatten ++ (broken ++ rest))
      (hframes : List.Forall₂ IsMessage frames messages) (hbroken : Broken broken) :
      Reads stream messages true

variable {bytes bytes' : List UInt8} {line : List Char} {lines : List (List Char)}

theorem fields_nil : Fields [] [] := ⟨[], rfl, .nil⟩

theorem Fields.concat (h : Fields bytes lines) (hline : IsField bytes' line) :
    Fields (bytes ++ bytes') (lines ++ [line]) := by
  obtain ⟨parts, rfl, hparts⟩ := h
  exact ⟨parts ++ [bytes'], by simp, List.rel_append hparts (.cons hline .nil)⟩

theorem ofBytes?_nil : Json.ofBytes? ⟨([] : List UInt8).toArray⟩ = none := by decide

end Wire

namespace Decoder

open Header (IsEmptyLine Decides lengthOf lengthOf_eq_some)
open Wire (IsLine IsField Fields IsHeader IsMessage Unfinished Broken Reads)

/-- What a reader takes from some bytes, and the reader after them. -/
def hear (d : Decoder) : List UInt8 → List Json × Decoder
  | [] => ([], d)
  | b :: rest =>
    ((d.step b).2.toList ++ (hear (d.step b).1 rest).1, (hear (d.step b).1 rest).2)

variable {d : Decoder} {bytes line content broken left : List UInt8} {lines : List (List Char)}
  {length : Option Nat} {n : Nat} {message : Json} {messages : List Json}

@[simp]
theorem hear_nil (d : Decoder) : d.hear [] = ([], d) := rfl

theorem hear_append (d : Decoder) (bytes more : List UInt8) :
    d.hear (bytes ++ more) =
      ((d.hear bytes).1 ++ ((d.hear bytes).2.hear more).1, ((d.hear bytes).2.hear more).2) := by
  induction bytes generalizing d with
  | nil => rfl
  | cons b bytes ih => simp only [List.cons_append, hear, ih, List.append_assoc]

theorem hear_concat (d : Decoder) (bytes : List UInt8) (b : UInt8) :
    d.hear (bytes ++ [b]) =
      ((d.hear bytes).1 ++ ((d.hear bytes).2.step b).2.toList, ((d.hear bytes).2.step b).1) := by
  simp [hear_append, hear]

@[simp]
theorem hear_stopped (bytes : List UInt8) : stopped.hear bytes = ([], stopped) := by
  induction bytes with
  | nil => rfl
  | cons b bytes ih => simp [hear, step, ih]

/-- A reader is at the beginning again after a message. -/
theorem eq_fresh_of_step {b : UInt8} {d' : Decoder} (h : d.step b = (d', some message)) : d' = fresh := by
  simp only [step] at h
  split at h
  · split at h <;> simp at h
  · split at h
    · split at h
      · exact (Prod.mk.inj h).1.symm
      · simp at h
    · simp at h
  · simp at h

/-- Taking the next message is hearing the bytes up to it. -/
theorem exists_of_feed {rest : List UInt8} {d' : Decoder} {next : Option Json}
    (h : d.feed bytes = (d', next, rest)) :
    ∃ used, bytes = used ++ rest ∧ d.hear used = (next.toList, d') ∧ (next = none → rest = []) ∧
      (next ≠ none → d' = fresh) := by
  induction bytes generalizing d with
  | nil =>
    obtain ⟨rfl, rfl, rfl⟩ : d = d' ∧ none = next ∧ [] = rest := by simpa [feed] using h
    exact ⟨[], rfl, rfl, fun _ ↦ rfl, fun hne ↦ absurd rfl hne⟩
  | cons b bytes ih =>
    simp only [feed] at h
    rcases hstep : d.step b with ⟨d₁, _ | message⟩ <;> rw [hstep] at h
    · obtain ⟨used, rfl, hused, hnext⟩ := ih h
      exact ⟨b :: used, rfl, by simp [hear, hstep, hused], hnext⟩
    · obtain ⟨rfl, rfl, rfl⟩ : d₁ = d' ∧ some message = next ∧ bytes = rest := by simpa using h
      exact ⟨[b], rfl, by simp [hear, hstep], by simp, fun _ ↦ eq_fresh_of_step hstep⟩

/-! ### The reader finds the messages -/

theorem hear_header_of_notMem (h : 0x0A ∉ bytes) (line : List UInt8) (length : Option Nat) :
    (header line length).hear bytes = ([], header (bytes.reverse ++ line) length) := by
  induction bytes generalizing line with
  | nil => rfl
  | cons b bytes ih =>
    obtain ⟨hb, hbytes⟩ := not_or.mp (mt List.mem_cons.mpr h)
    simp [hear, step, Ne.symm hb, ih hbytes]

theorem hear_line (h : IsLine line) (length : Option Nat) :
    (header [] length).hear line = ([], lineEnd line length) := by
  obtain ⟨front, rfl, hfront⟩ := h
  simp [hear_concat, hear_header_of_notMem hfront, step]

/-- The reader remembers the length that the lines of a header decide on. -/
theorem hear_fields (h : Fields bytes lines) : fresh.hear bytes = ([], header [] (lengthOf lines)) := by
  obtain ⟨parts, rfl, hparts⟩ := h
  have hall : ∀ length : Option Nat, (header [] length).hear parts.flatten =
      ([], header [] (lines.foldl (fun length line ↦ afterLine line length) length)) := by
    induction hparts with
    | nil => exact fun length ↦ rfl
    | cons hfield _ ih =>
      intro length
      simp [hear_append, hear_line hfield.isLine, lineEnd_field hfield.text hfield.solid, ih]
  exact hall none

theorem hear_isHeader (h : IsHeader bytes lines) :
    ∃ close line, Text.utf8Text? close = some (String.ofList line) ∧ IsEmptyLine line ∧
      fresh.hear bytes = ([], lineEnd close (lengthOf lines)) := by
  obtain ⟨fields, close, line, rfl, hfields, hclose, htext, hempty⟩ := h
  exact ⟨close, line, htext, hempty, by simp [hear_append, hear_fields hfields, hear_line hclose]⟩

/-- After a header that decides on a length, the reader is in a body. -/
theorem hear_header_of_decides (h : IsHeader bytes lines) (hn : Decides lines n) (hpos : 0 < n) :
    fresh.hear bytes = ([], body [] n) := by
  obtain ⟨close, line, htext, hempty, heq⟩ := hear_isHeader h
  rw [heq, lineEnd_empty htext hempty, lengthOf_eq_some.mpr hn, Option.getD_some, if_neg hpos.ne']

theorem hear_header_of_not_decides (h : IsHeader bytes lines) (hn : ∀ n, Decides lines n → n = 0) :
    fresh.hear bytes = ([], stopped) := by
  obtain ⟨close, line, htext, hempty, heq⟩ := hear_isHeader h
  rw [heq, lineEnd_empty htext hempty, if_pos]
  cases hlength : lengthOf lines with
  | none => rfl
  | some n => exact hn n (lengthOf_eq_some.mp hlength)

theorem hear_body (h : content.length < n) (got : List UInt8) :
    (body got n).hear content = ([], body (content.reverse ++ got) (n - content.length)) := by
  induction content generalizing got n with
  | nil => rfl
  | cons b content ih =>
    rw [List.length_cons] at h
    have hmore : ¬ n ≤ 1 := by omega
    have hrest : content.length < n - 1 := by omega
    have hmissing : n - 1 - content.length = n - (content.length + 1) := by omega
    simp [hear, step, hmore, ih hrest, hmissing]

theorem hear_whole_body (h : content ≠ []) :
    (body [] content.length).hear content =
      match Json.ofBytes? ⟨content.toArray⟩ with
      | some message => ([message], fresh)
      | none => ([], stopped) := by
  obtain ⟨front, b, rfl⟩ := List.eq_nil_or_concat' content |>.resolve_left h
  have hfront : front.length < (front ++ [b]).length := by simp
  rw [hear_concat, hear_body hfront]
  simp only [List.length_append, List.length_singleton, Nat.add_sub_cancel_left, List.append_nil, step,
    Nat.le_refl, if_true, List.reverse_cons, List.reverse_reverse]
  cases Json.ofBytes? ⟨(front ++ [b]).toArray⟩ <;> rfl

theorem hear_message (h : IsMessage bytes message) : fresh.hear bytes = ([message], fresh) := by
  obtain ⟨header, body, lines, rfl, hheader, hlength, hjson⟩ := h
  have hne : body ≠ [] := by
    rintro rfl
    rw [Wire.ofBytes?_nil] at hjson
    cases hjson
  have hpos := List.length_pos_iff.mpr hne
  rw [hear_append, hear_header_of_decides hheader hlength hpos, hear_whole_body hne, hjson]
  rfl

theorem hear_messages {frames : List (List UInt8)} (h : List.Forall₂ IsMessage frames messages) :
    fresh.hear frames.flatten = (messages, fresh) := by
  induction h with
  | nil => rfl
  | cons hmessage _ ih => simp [hear_append, hear_message hmessage, ih]

theorem hear_broken (h : Broken broken) : fresh.hear broken = ([], stopped) := by
  cases h with
  | noText hfields hline htext =>
    simp [hear_append, hear_fields hfields, hear_line hline, lineEnd_of_noText htext]
  | noLength hheader hn => exact hear_header_of_not_decides hheader fun n h ↦ absurd h (hn n)
  | @noJson header body lines hheader hn hbody =>
    by_cases hne : body = []
    · subst hne
      have hzero : ∀ n, Decides lines n → n = 0 := fun n h ↦ by
        have heq := (lengthOf_eq_some.mpr h).symm.trans (lengthOf_eq_some.mpr hn)
        exact Option.some.inj heq
      simpa using hear_header_of_not_decides hheader hzero
    · have hpos := List.length_pos_iff.mpr hne
      rw [hear_append, hear_header_of_decides hheader hn hpos, hear_whole_body hne, hbody]
      rfl

theorem hear_unfinished (h : Unfinished left) : ∃ d, fresh.hear left = ([], d) ∧ d ≠ stopped := by
  cases h with
  | @header fields line lines hfields hline =>
    refine ⟨.header line.reverse (lengthOf lines), ?_, by simp⟩
    simp [hear_append, hear_fields hfields, hear_header_of_notMem hline]
  | @body header content lines n hheader hn hcontent =>
    refine ⟨.body content.reverse (n - content.length), ?_, by simp⟩
    simp [hear_append, hear_header_of_decides hheader hn (Nat.zero_lt_of_lt hcontent), hear_body hcontent]

/-- The reader finds the messages of a stream, and stops if something follows that makes no sense. -/
theorem hear_of_reads {stream : List UInt8} {stops : Bool} (h : Reads stream messages stops) :
    (fresh.hear stream).1 = messages ∧ ((fresh.hear stream).2 = stopped ↔ stops = true) := by
  cases h with
  | unfinished hstream hframes hleft =>
    obtain ⟨d, hd, hne⟩ := hear_unfinished hleft
    simp [hstream, hear_append, hear_messages hframes, hd, hne]
  | broken hstream hframes hbroken =>
    simp [hstream, hear_append, hear_messages hframes, hear_broken hbroken]

/-! ### What the reader finds are messages -/

/-- The bytes since the last message that a reader stands for. -/
inductive Holds : Decoder → List UInt8 → Prop
  | header {fields line : List UInt8} {lines : List (List Char)} (h : Fields fields lines)
      (hline : 0x0A ∉ line) : Holds (.header line.reverse (lengthOf lines)) (fields ++ line)
  | body {header got : List UInt8} {lines : List (List Char)} {missing : Nat} (h : IsHeader header lines)
      (hn : Decides lines (got.length + missing)) (hmissing : 0 < missing) :
      Holds (.body got.reverse missing) (header ++ got)
  | stopped {broken : List UInt8} (h : Broken broken) (rest : List UInt8) :
      Holds .stopped (broken ++ rest)

theorem holds_fresh : Holds fresh [] := .header Wire.fields_nil List.not_mem_nil

/-- The end of a line in a header. -/
theorem Holds.lineEnd (h : Fields bytes lines) (hline : IsLine line) :
    Holds (lineEnd line (lengthOf lines)) (bytes ++ line) := by
  cases htext : Text.utf8Text? line with
  | none =>
    rw [lineEnd_of_noText htext]
    simpa using Holds.stopped (.noText h hline htext) []
  | some text =>
    rw [← String.ofList_toList (s := text)] at htext
    by_cases hempty : IsEmptyLine text.toList
    · have hheader : IsHeader (bytes ++ line) lines := ⟨_, _, _, rfl, h, hline, htext, hempty⟩
      rw [lineEnd_empty htext hempty]
      rcases hlength : lengthOf lines with _ | _ | n
      · have hnone : ∀ n, ¬ Decides lines n := fun n hn ↦ by
          rw [lengthOf_eq_some.mpr hn] at hlength
          cases hlength
        simpa using Holds.stopped (.noLength hheader hnone) []
      · have hbroken : Broken (bytes ++ line ++ []) :=
          .noJson hheader (lengthOf_eq_some.mp hlength) Wire.ofBytes?_nil
        simpa using Holds.stopped hbroken []
      · have hbody : Holds (.body [].reverse (n + 1)) (bytes ++ line ++ []) :=
          .body hheader (by simpa using lengthOf_eq_some.mp hlength) (Nat.succ_pos n)
        simpa using hbody
    · rw [lineEnd_field htext hempty, ← Header.lengthOf_concat]
      have hnext : Holds (.header [].reverse (lengthOf (lines ++ [text.toList]))) (bytes ++ line ++ []) :=
        .header (h.concat ⟨hline, htext, hempty⟩) List.not_mem_nil
      simpa using hnext

/-- One more byte goes on with what a reader stands for, or completes a message. -/
theorem Holds.step (h : Holds d left) (b : UInt8) :
    (∃ d', d.step b = (d', none) ∧ Holds d' (left ++ [b])) ∨
      ∃ message, d.step b = (fresh, some message) ∧ IsMessage (left ++ [b]) message := by
  cases h with
  | @header fields line lines hfields hline =>
    refine Or.inl ?_
    rw [Decoder.step, List.append_assoc]
    split
    · rename_i hb
      subst hb
      refine ⟨_, rfl, ?_⟩
      rw [List.reverse_cons, List.reverse_reverse]
      exact .lineEnd hfields ⟨line, rfl, hline⟩
    · rename_i hb
      have hmem : 0x0A ∉ line ++ [b] := by simp [hline, Ne.symm hb]
      exact ⟨_, rfl, by simpa using Holds.header hfields hmem⟩
  | @body header got lines missing hheader hn hmissing =>
    rw [Decoder.step, List.append_assoc]
    split
    · obtain rfl : missing = 1 := by omega
      have hlength : Decides lines (got ++ [b]).length := by simpa using hn
      rw [List.reverse_cons, List.reverse_reverse]
      cases hjson : Json.ofBytes? ⟨(got ++ [b]).toArray⟩ with
      | none => exact Or.inl ⟨_, rfl, by simpa using Holds.stopped (.noJson hheader hlength hjson) []⟩
      | some message => exact Or.inr ⟨message, rfl, _, _, _, rfl, hheader, hlength, hjson⟩
    · refine Or.inl ⟨_, rfl, ?_⟩
      have hlength : Decides lines ((got ++ [b]).length + (missing - 1)) := by
        rw [List.length_append, List.length_singleton]
        rwa [show got.length + 1 + (missing - 1) = got.length + missing by omega]
      simpa using Holds.body hheader hlength (by omega)
  | stopped hbroken rest =>
    refine Or.inl ⟨_, rfl, ?_⟩
    rw [List.append_assoc]
    exact .stopped hbroken _

/-- What a reader has taken from a stream are its first messages. -/
theorem exists_frames (stream : List UInt8) :
    ∃ frames left, stream = frames.flatten ++ left ∧
      List.Forall₂ IsMessage frames (fresh.hear stream).1 ∧ Holds (fresh.hear stream).2 left := by
  induction stream using List.reverseRecOn with
  | nil => exact ⟨[], [], rfl, .nil, holds_fresh⟩
  | append_singleton stream b ih =>
    obtain ⟨frames, left, heq, hframes, hleft⟩ := ih
    rw [hear_concat]
    rcases hleft.step b with ⟨d', hstep, hholds⟩ | ⟨message, hstep, hmessage⟩ <;> rw [hstep]
    · exact ⟨frames, left ++ [b], by rw [heq, List.append_assoc], by simpa using hframes, hholds⟩
    · exact ⟨frames ++ [left ++ [b]], [], by simp [heq],
        List.rel_append hframes (.cons hmessage .nil), holds_fresh⟩

/-- What a reader takes from a stream are the messages of the stream. -/
theorem reads_hear (stream : List UInt8) :
    Reads stream (fresh.hear stream).1 (decide ((fresh.hear stream).2 = stopped)) := by
  obtain ⟨frames, left, heq, hframes, hleft⟩ := exists_frames stream
  generalize (fresh.hear stream).2 = d at hleft
  cases hleft with
  | header hfields hline => exact .unfinished heq hframes (.header hfields hline)
  | body hheader hn hmissing => exact .unfinished heq hframes (.body hheader hn (by omega))
  | stopped hbroken rest => exact .broken heq hframes hbroken

/-- The messages of a stream, and whether something follows them that makes no sense, are settled by its
bytes. -/
theorem existsUnique_reads (stream : List UInt8) :
    ∃! said : List Json × Bool, Reads stream said.1 said.2 := by
  refine ⟨((fresh.hear stream).1, decide ((fresh.hear stream).2 = stopped)), reads_hear stream,
    fun said hsaid ↦ ?_⟩
  obtain ⟨hmessages, hstops⟩ := hear_of_reads hsaid
  exact Prod.ext hmessages.symm (Bool.eq_iff_iff.mpr (hstops.symm.trans decide_eq_true_iff.symm))

end Decoder

end CodeNav
