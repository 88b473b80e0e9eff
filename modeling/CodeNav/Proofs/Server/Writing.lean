import CodeNav.Proofs.Server.Streams
import CodeNav.Proofs.Text.Utf8
import CodeNav.Proofs.Url.Characters

/-!
# What is written is read back

A message is written after a header with one line, which gives the length of the message in bytes. So the
bytes of a message that is read back from its own text are those of the message, and a stream that consists
of them has these messages and nothing else.

## Main statements

* `Wire.isMessage_frame`: the bytes of a message are those of the message
* `Wire.reads_frames`: what was written has the messages that were written
* `Wire.frames_not_read`: not every message is read back
-/

namespace CodeNav

namespace Wire

open Header (IsEmptyLine Gives IsLength Decides)

variable {cs : List Char} {n : Nat} {message : Json} {messages : List Json}

/-- A text with a line feed at its end, and with no other, is a line. -/
theorem isLine_utf8Bytes (h : '\n' ∉ cs) : IsLine (Text.utf8Bytes (cs ++ ['\n'])) :=
  ⟨Text.utf8Bytes cs, Text.utf8Bytes_append cs ['\n'], fun hmem ↦
    h ((Text.mem_utf8Bytes_iff (by decide)).mp hmem)⟩

/-- The name of the header line that gives a length, as it is written. -/
def lengthLabel : List Char :=
  ['C', 'o', 'n', 't', 'e', 'n', 't', '-', 'L', 'e', 'n', 'g', 't', 'h']

/-- The line of a header that gives a length, without the line feed at its end. -/
def lengthLine (n : Nat) : List Char :=
  lengthLabel ++ ':' :: ' ' :: (Nat.toDigits 10 n ++ ['\r'])

theorem isVisible_of_isDigit {c : Char} (h : c.isDigit = true) : Url.isVisible c = true := by
  have hrange : 48 ≤ c.val.toNat ∧ c.val.toNat ≤ 57 := by
    simpa [Char.isDigit, UInt32.le_iff_toNat_le] using h
  simp only [Url.isVisible, Bool.and_eq_true, decide_eq_true_eq, Char.toNat]
  omega

theorem isDigit_of_mem_toDigits {c : Char} (h : c ∈ Nat.toDigits 10 n) : c.isDigit = true :=
  Nat.isDigit_of_mem_toDigits (by decide) (by decide) h

theorem gives_lengthLine (n : Nat) :
    Gives (lengthLine n ++ ['\n']) (' ' :: (Nat.toDigits 10 n ++ ['\r', '\n'])) := by
  refine ⟨lengthLabel, ?_, by decide, by decide⟩
  simp only [lengthLine, List.append_assoc, List.cons_append, List.nil_append]

theorem isLength_toDigits (h : n < wordValues 64) :
    IsLength (Text.trim (' ' :: (Nat.toDigits 10 n ++ ['\r', '\n']))) n := by
  have hvisible : ∀ c ∈ Nat.toDigits 10 n, Url.isVisible c = true := fun c hc ↦
    isVisible_of_isDigit (isDigit_of_mem_toDigits hc)
  have hblank (cs : List Char) : Text.trim (' ' :: cs) = Text.trim cs := by
    rw [Text.trim, Text.trimStart, List.dropWhile_cons_of_pos (by decide)]
    rfl
  have hending : ∀ c ∈ ['\r', '\n'], Text.isBlank c = true := fun c hc ↦ by
    rcases List.mem_pair.mp hc with rfl | rfl <;> decide
  have htrim : Text.trim (' ' :: (Nat.toDigits 10 n ++ ['\r', '\n'])) = Nat.toDigits 10 n := by
    rw [hblank, Text.trim_append_of_isBlank _ hending, Text.trim_of_visible hvisible]
  exact ⟨Nat.toDigits 10 n, Or.inl htrim, Nat.toDigits_ne_nil, fun c hc ↦ isDigit_of_mem_toDigits hc,
    Nat.ofDigitChars_ten_toDigits, h⟩

/-- The header that a message is written after. -/
theorem isHeader_lengthLine (n : Nat) :
    IsHeader (Text.utf8Bytes (lengthLine n ++ ['\n']) ++ Text.utf8Bytes ['\r', '\n'])
      [lengthLine n ++ ['\n']] := by
  have hline : '\n' ∉ lengthLine n := by
    have hdigits : '\n' ∉ Nat.toDigits 10 n := fun hmem ↦
      absurd (isDigit_of_mem_toDigits hmem) (by decide)
    simp [lengthLine, lengthLabel, hdigits]
  have hsolid : ¬ IsEmptyLine (lengthLine n ++ ['\n']) := fun hempty ↦
    absurd (hempty 'C' (by simp [lengthLine, lengthLabel])) (by decide)
  have hfield : IsField (Text.utf8Bytes (lengthLine n ++ ['\n'])) (lengthLine n ++ ['\n']) :=
    ⟨isLine_utf8Bytes hline, Text.utf8Text?_utf8Bytes _, hsolid⟩
  have hclose : IsLine (Text.utf8Bytes ['\r', '\n']) := isLine_utf8Bytes (show '\n' ∉ ['\r'] by decide)
  have hempty : IsEmptyLine ['\r', '\n'] := fun c hc ↦ List.mem_pair.mp hc
  exact ⟨_, _, _, rfl, ⟨[_], by simp, .cons hfield .nil⟩, hclose, Text.utf8Text?_utf8Bytes _, hempty⟩

theorem frame_eq (message : Json) :
    frame message =
      Text.utf8Bytes (lengthLine message.compact.toUTF8.size ++ ['\n']) ++ Text.utf8Bytes ['\r', '\n'] ++
        message.compact.toUTF8.data.toList := by
  have hsize : (Text.utf8Bytes message.compact.toList).length = message.compact.toUTF8.size := by
    rw [← Text.toList_toUTF8]
    rfl
  rw [frame, hsize, Text.toList_toUTF8, ← Text.utf8Bytes_append]
  have hlabel : ("Content-Length: " ++ toString message.compact.toUTF8.size ++ "\r\n\r\n").toList =
      lengthLine message.compact.toUTF8.size ++ ['\n'] ++ ['\r', '\n'] := by
    have hfirst : "Content-Length: ".toList = lengthLabel ++ [':', ' '] := by decide +kernel
    have hlast : "\r\n\r\n".toList = ['\r', '\n', '\r', '\n'] := by decide +kernel
    have hdigits (n : Nat) : (toString n).toList = Nat.toDigits 10 n := String.toList_ofList
    rw [String.toList_append, String.toList_append, hfirst, hlast, hdigits, lengthLine]
    simp only [List.append_assoc, List.cons_append, List.nil_append]
  rw [hlabel, Text.utf8Bytes_append, Text.utf8Bytes_append]

/-- What is written is the header that its text needs. -/
theorem decides_lengthLine (h : n < wordValues 64) : Decides [lengthLine n ++ ['\n']] n :=
  ⟨[], _, [], _, rfl, gives_lengthLine _, isLength_toDigits h, by simp⟩

/-- The bytes of a message are those of the message that is read from its text. -/
theorem isMessage_frame {message' : Json} (h : Json.ofBytes? message.compact.toUTF8 = some message')
    (hsize : message.compact.toUTF8.size < wordValues 64) : IsMessage (frame message) message' :=
  ⟨_, _, _, frame_eq message, isHeader_lengthLine _, decides_lengthLine hsize, h⟩

/-- The bytes of a message make no sense if its text is not read. -/
theorem broken_frame (h : Json.ofBytes? message.compact.toUTF8 = none)
    (hsize : message.compact.toUTF8.size < wordValues 64) : Broken (frame message) := by
  rw [frame_eq]
  exact .noJson (isHeader_lengthLine _) (decides_lengthLine hsize) h

theorem unfinished_nil : Unfinished [] := by
  simpa using Unfinished.header fields_nil (List.not_mem_nil : (0x0A : UInt8) ∉ [])

/-- What was written has the messages that were written, if each of them is read back from its text. -/
theorem reads_frames (h : ∀ m ∈ messages, Json.ofBytes? m.compact.toUTF8 = some m)
    (hsize : ∀ m ∈ messages, m.compact.toUTF8.size < wordValues 64) :
    Reads (messages.flatMap frame) messages false := by
  have hframes : List.Forall₂ IsMessage (messages.map frame) messages :=
    List.forall₂_map_left_iff.mpr (List.forall₂_same.mpr fun m hm ↦ isMessage_frame (h m hm) (hsize m hm))
  exact .unfinished (by rw [List.append_nil, List.flatMap_def]) hframes unfinished_nil

/-! ### What is not read back -/

/-- Arrays in each other, as many as a number says. -/
def nested : Nat → Json
  | 0 => .null
  | n + 1 => .array [nested n]

/-- A request. -/
def asking (id params : Json) : Json :=
  .object [("id", id), ("method", .string "m"), ("params", params)]

/-- The number before 0.2. -/
def justBelow : Json := .real ⟨0x3FC9999999999999⟩

theorem reads_of_isMessage {bytes : List UInt8} (h : IsMessage bytes message) : Reads bytes [message] false :=
  .unfinished (by simp) (.cons h .nil) unfinished_nil

theorem reads_of_broken {bytes : List UInt8} (h : Broken bytes) : Reads bytes [] true := by
  have hbytes : bytes = [].flatten ++ (bytes ++ []) := by simp
  exact .broken hbytes .nil h

theorem size_compact_lt (h : (Text.utf8Bytes message.compactChars).length < wordValues 64) :
    message.compact.toUTF8.size < wordValues 64 := by
  rwa [Json.compact, Text.toUTF8_ofList]

theorem ofBytes?_nested : Json.ofBytes? (asking (.int 7) (nested 127)).compact.toUTF8 = none := by
  rw [Json.ofBytes?_toUTF8_compact]
  exact Option.isNone_iff_eq_none.mp (by decide +kernel)

theorem exists_ofBytes?_justBelow :
    ∃ m ≠ asking justBelow .null, Json.ofBytes? (asking justBelow .null).compact.toUTF8 = some m := by
  have hread : ((Json.read (asking justBelow .null).compactChars).toOption.any fun m ↦
      m.compactChars ≠ (asking justBelow .null).compactChars) = true := by decide +kernel
  obtain ⟨m, hm, hother⟩ := (Option.any_eq_true ..).mp hread
  refine ⟨m, ?_, (Json.ofBytes?_toUTF8_compact _).trans hm⟩
  rintro rfl
  exact of_decide_eq_true hother rfl

/-- Not every message is read back. One that is nested too deep breaks the stream, and a real number may
come back as another one. -/
theorem frames_not_read :
    (∀ m ∈ [asking (.int 7) (nested 127), asking justBelow .null], m.compact.toUTF8.size < wordValues 64) ∧
      Reads (frame (asking (.int 7) (nested 127))) [] true ∧
      (∃ m ≠ asking justBelow .null, Reads (frame (asking justBelow .null)) [m] false) ∧
      ¬ ∀ messages : List Json, (∀ m ∈ messages, m.compact.toUTF8.size < wordValues 64) →
        Reads (messages.flatMap frame) messages false := by
  have hnested : (asking (.int 7) (nested 127)).compact.toUTF8.size < wordValues 64 :=
    size_compact_lt (by decide +kernel)
  have hjust : (asking justBelow .null).compact.toUTF8.size < wordValues 64 := size_compact_lt (by decide +kernel)
  obtain ⟨m, hother, hread⟩ := exists_ofBytes?_justBelow
  have hreads : Reads (frame (asking justBelow .null)) [m] false :=
    reads_of_isMessage (isMessage_frame hread hjust)
  refine ⟨?_, ?_, ⟨m, hother, hreads⟩, fun hall ↦ hother ?_⟩
  · intro m hm
    rcases List.mem_pair.mp hm with rfl | rfl
    · exact hnested
    · exact hjust
  · exact reads_of_broken (broken_frame ofBytes?_nested hnested)
  · have hsame := hall [asking justBelow .null] fun m hm ↦ List.mem_singleton.mp hm ▸ hjust
    rw [List.flatMap_singleton] at hsame
    have hone := (Decoder.hear_of_reads hreads).1.symm.trans (Decoder.hear_of_reads hsame).1
    exact (List.cons.inj hone).1

end Wire

end CodeNav
