import CodeNav.Proofs.Frame.Sending
import CodeNav.Proofs.Server.Requests
import CodeNav.Proofs.Server.Writing

/-!
# What a client hears

The server's output arrives in pieces of any length and at any time, between requests that are made,
written, answered and given up. The reader of a client takes the messages of this output in their order,
up to the first bytes that make no sense or to the end, and closes the client there. What it takes is
settled by all the bytes together, and not by how they were cut into pieces or by what else went on.

## Main definitions

* `Listening`: an exchange, and all the bytes that have arrived
* `Listening.Step`: bytes arrive, or something else happens
* `Listening.Attentive`: what is known of the reader

## Main statements

* `Exchange.Step.streams`: what a step does with the server's output
* `Listening.attentive_of_run`: it is known in every run
-/

namespace CodeNav

/-- The message that is taken with an event. -/
def RequestEvent.heard? : RequestEvent → Option Json
  | heard m => some m
  | _ => none

namespace Client

variable {c c' : Client}

/-- The same unread bytes, the same reader, and both open or closed. -/
structure SameStream (c c' : Client) : Prop where
  incoming : c'.wire.incoming = c.wire.incoming
  ended : c'.wire.ended = c.wire.ended
  decoder : c'.decoder = c.decoder
  closed : c'.closed = c.closed

theorem SameStream.refl (c : Client) : SameStream c c := ⟨rfl, rfl, rfl, rfl⟩

theorem SameStream.trans {c₁ c₂ c₃ : Client} (h : SameStream c₁ c₂) (h' : SameStream c₂ c₃) :
    SameStream c₁ c₃ :=
  ⟨h'.incoming.trans h.incoming, h'.ended.trans h.ended, h'.decoder.trans h.decoder,
    h'.closed.trans h.closed⟩

theorem sameStream_write {ticket : Nat} {message : Json} {r : Except SessionError Unit}
    (h : c.write? ticket message = some (r, c')) : SameStream c c' := by
  cases writes_of_write h <;> exact ⟨rfl, rfl, rfl, rfl⟩

theorem Handles.sameStream {m : Json} (h : c.Handles m c') : SameStream c c' := by
  cases h <;> exact ⟨rfl, rfl, rfl, rfl⟩

/-- What the reader does: it writes its answer, takes bytes up to a message, takes the last bytes without a
message, or comes to the end. -/
inductive ReaderTakes (c : Client) : Reading → Client → Prop
  | answer {c' : Client} (h : SameStream c c') : ReaderTakes c .nothing c'
  | message {c' : Client} {used rest : List UInt8} {m : Json}
      (hincoming : c.wire.incoming = used ++ rest) (hused : c.decoder.hear used = ([m], .fresh))
      (h : SameStream { c with decoder := .fresh, wire := { c.wire with incoming := rest } } c') :
      ReaderTakes c (.message m) c'
  | part {d : Decoder} (hused : c.decoder.hear c.wire.incoming = ([], d)) (hd : d ≠ .stopped) :
      ReaderTakes c .nothing { c with decoder := d, wire := { c.wire with incoming := [] } }
  | broken (hused : c.decoder.hear c.wire.incoming = ([], .stopped)) :
      ReaderTakes c .ended { c with decoder := .stopped, wire := { c.wire with incoming := [] } }.close
  | finish (hincoming : c.wire.incoming = []) (hended : c.wire.ended = true) : ReaderTakes c .ended c.close

/-- The reader goes on only while the client is open. -/
theorem readerTakes_of_turn (h : c.readerTurn = some c') :
    c.closed = false ∧ ReaderTakes c c.reading c' := by
  obtain ⟨hopen, hreads⟩ := reads_of_readerTurn h
  refine ⟨hopen, ?_⟩
  generalize c.reading = reading at hreads ⊢
  cases hreads with
  | answers _ hwrite =>
    have hsame := sameStream_write hwrite
    exact .answer ⟨hsame.incoming, hsame.ended, hsame.decoder, hsame.closed⟩
  | hears _ _ hfeed =>
    obtain ⟨used, heq, hused, -, hfresh⟩ := Decoder.exists_of_feed hfeed
    obtain rfl := hfresh (by simp)
    exact .message heq hused (handles _ _).sameStream
  | waits _ _ hfeed hdecoder =>
    obtain ⟨used, heq, hused, hrest, -⟩ := Decoder.exists_of_feed hfeed
    obtain rfl := hrest rfl
    rw [List.append_nil] at heq
    exact .part (heq ▸ hused) hdecoder
  | breaks _ _ hfeed =>
    obtain ⟨used, heq, hused, hrest, -⟩ := Decoder.exists_of_feed hfeed
    obtain rfl := hrest rfl
    rw [List.append_nil] at heq
    exact .broken (heq ▸ hused)
  | ends _ hincoming hended => exact .finish hincoming hended

/-- A reader that has nothing left to do has read everything, and the output goes on, or it has closed the
client. -/
theorem closed_or_of_readerTurn (h : c.readerTurn = none) (hanswering : c.answering = none) :
    c.closed = true ∨ c.wire.incoming = [] ∧ c.wire.ended = false := by
  simp only [readerTurn] at h
  split at h
  · exact Or.inl ‹_›
  · refine Or.inr ?_
    simp only [hanswering] at h
    split at h
    · rename_i hincoming
      refine ⟨hincoming, ?_⟩
      split at h
      · cases h
      · exact Bool.eq_false_of_not_eq_true ‹_›
    · rcases hfeed : c.decoder.feed c.wire.incoming with ⟨d, _ | m, rest⟩ <;> simp only [hfeed] at h
      · split at h <;> cases h
      · cases h

end Client

namespace ServerCall

variable {c c' : Client} {r r' : ServerCall} {now : Nat}

theorem sameStream_start {m : String} {params : Json} {l : Option Nat}
    (h : start m params l c = .ok (r, c')) : c.SameStream c' := by
  simp only [start] at h
  split at h
  · cases h
  · obtain ⟨-, rfl⟩ := Prod.mk.inj (Except.ok.inj h)
    exact ⟨rfl, rfl, rfl, rfl⟩

theorem sameStream_moved (h : r.turn now c = .moved r' c') : c.SameStream c' := by
  cases r with
  | writing id ticket m l message =>
    simp only [turn] at h
    split at h
    · cases h
    · cases h
    · rename_i hwrite
      obtain ⟨-, rfl⟩ := Turn.moved.inj h
      exact Client.sameStream_write hwrite
  | awaiting id m l deadline =>
    simp only [turn] at h
    split at h
    · cases h
    · split at h
      · cases h
      · split at h
        · split at h <;> cases h
        · cases h

theorem sameStream_forget (c : Client) (id : Nat) : c.SameStream (forget c id) := ⟨rfl, rfl, rfl, rfl⟩

theorem sameStream_finished {result : Except SessionError Json} (h : r.turn now c = .finished result c') :
    c.SameStream c' := by
  cases r with
  | writing id ticket m l message =>
    simp only [turn] at h
    split at h
    · cases h
    · rename_i hwrite
      obtain ⟨-, rfl⟩ := Turn.finished.inj h
      exact (Client.sameStream_write hwrite).trans (sameStream_forget _ id)
    · cases h
  | awaiting id m l deadline =>
    simp only [turn] at h
    split at h
    · obtain ⟨-, rfl⟩ := Turn.finished.inj h
      exact sameStream_forget c id
    · split at h
      · obtain ⟨-, rfl⟩ := Turn.finished.inj h
        exact sameStream_forget c id
      · split at h
        · split at h
          · obtain ⟨-, rfl⟩ := Turn.finished.inj h
            exact sameStream_forget c id
          · cases h
        · cases h

theorem sameStream_drop (r : ServerCall) (c : Client) : c.SameStream (r.drop c) := by
  cases r <;> exact ⟨rfl, rfl, rfl, rfl⟩

end ServerCall

namespace Note

variable {c c' : Client} {n : Note}

theorem sameStream_start {m : String} {params : Json} (h : start m params c = .ok (n, c')) :
    c.SameStream c' := by
  simp only [start] at h
  split at h
  · cases h
  · obtain ⟨-, rfl⟩ := Prod.mk.inj (Except.ok.inj h)
    exact ⟨rfl, rfl, rfl, rfl⟩

theorem sameStream_turn {r : Except SessionError Unit} (h : n.turn c = .finished r c') : c.SameStream c' := by
  simp only [turn] at h
  split at h
  · cases h
  · rename_i hwrite
    obtain ⟨-, rfl⟩ := Turn.finished.inj h
    exact Client.sameStream_write hwrite

end Note

/-- What is seen when the reader comes upon nothing, and of everybody else: no message, and no end. -/
def RequestEvent.isQuiet : RequestEvent → Bool
  | heard _ => false
  | ended => false
  | _ => true

/-- What a step does with the server's output: nothing, the reader goes on, or the server writes. -/
theorem Exchange.Step.streams {w w' : Exchange} {e : RequestEvent} (h : Exchange.Step w e w') :
    (e.isQuiet = true ∧ w.client.SameStream w'.client) ∨
      (w.client.closed = false ∧ w.client.ReaderTakes w.client.reading w'.client ∧
        e = .ofReading w.client.reading) ∨
      ∃ bytes accepts ended, e = .other ∧
        w'.client = { w.client with wire := w.client.wire.serve bytes accepts ended } := by
  cases h with
  | ask h => exact Or.inl ⟨rfl, ServerCall.sameStream_start h⟩
  | refuse h => exact Or.inl ⟨rfl, .refl _⟩
  | write hn h => exact Or.inl ⟨rfl, ServerCall.sameStream_moved h⟩
  | finish hn h => exact Or.inl ⟨rfl, ServerCall.sameStream_finished h⟩
  | drop hn => exact Or.inl ⟨rfl, ServerCall.sameStream_drop _ _⟩
  | note h => exact Or.inl ⟨rfl, Note.sameStream_start h⟩
  | noteTurn hi h => exact Or.inl ⟨rfl, Note.sameStream_turn h⟩
  | noteDrop hi => exact Or.inl ⟨rfl, ⟨rfl, rfl, rfl, rfl⟩⟩
  | read h he =>
    obtain ⟨hopen, htakes⟩ := Client.readerTakes_of_turn h
    exact Or.inr (Or.inl ⟨hopen, htakes, he.symm⟩)
  | serve bytes accepts ended => exact Or.inr (Or.inr ⟨bytes, accepts, ended, rfl, rfl⟩)
  | pass d => exact Or.inl ⟨rfl, .refl _⟩

/-- An exchange, with all the bytes that the server has written. -/
structure Listening where
  exchange : Exchange
  arrived : List UInt8

namespace Listening

/-- Nothing has arrived yet. -/
def start (c : Client) : Listening := ⟨.start c, []⟩

/-- The server writes bytes, as long as it has not ended its output, or something else happens that makes
no bytes. -/
inductive Step (w : Listening) : RequestEvent → Listening → Prop
  | arrive (bytes : List UInt8) (accepts ended : Bool)
      (hopen : w.exchange.client.wire.ended = true → bytes = []) :
      Step w .other
        { exchange :=
            { w.exchange with
              client :=
                { w.exchange.client with wire := w.exchange.client.wire.serve bytes accepts ended } }
          arrived := w.arrived ++ bytes }
  | go {e : RequestEvent} {x : Exchange} (h : w.exchange.Step e x)
      (hbytes : x.client.wire.incoming <:+ w.exchange.client.wire.incoming) :
      Step w e { w with exchange := x }

/-- The messages that were taken. -/
def heard (t : List RequestEvent) : List Json := t.filterMap RequestEvent.heard?

/-- What is known of the reader, after a history of events. -/
structure Attentive (t : List RequestEvent) (w : Listening) : Prop where
  /-- The bytes alone settle which messages have arrived, and whether something follows them that makes no
  sense. -/
  settled : ∃! said : List Json × Bool, Wire.Reads w.arrived said.1 said.2
  /-- The messages are taken in their order, and nothing else is. -/
  inOrder : ∀ messages stops, Wire.Reads w.arrived messages stops → heard t <+: messages
  /-- The client is closed only when all messages were taken, and something follows them that makes no sense,
  or the output has ended. -/
  closed : w.exchange.client.closed = true → ∀ messages stops, Wire.Reads w.arrived messages stops →
    heard t = messages ∧ (stops = true ∨ w.exchange.client.wire.ended = true)
  /-- A reader that has nothing left to do, and owes the server no answer, has taken all messages. It has
  closed the client exactly if something follows them that makes no sense, or the output has ended. -/
  idle : w.exchange.client.readerTurn = none → w.exchange.client.answering = none →
    ∀ messages stops, Wire.Reads w.arrived messages stops → heard t = messages ∧
      (w.exchange.client.closed = true ↔ stops = true ∨ w.exchange.client.wire.ended = true)
  /-- The reader comes to the end when it closes the client. -/
  ended : w.exchange.client.closed = true ↔ .ended ∈ t
  /-- After the end, nothing more is taken. -/
  silent : ∀ before after, t = before ++ .ended :: after → heard after = []

/-- The bytes that have arrived are those that the reader has taken, and those that are unread. -/
structure Kept (t : List RequestEvent) (w : Listening) : Prop where
  bytes : ∃ used, w.arrived = used ++ w.exchange.client.wire.incoming ∧
    Decoder.fresh.hear used = (heard t, w.exchange.client.decoder)
  stopped : w.exchange.client.decoder = .stopped → w.exchange.client.closed = true
  closed : w.exchange.client.closed = true → w.exchange.client.decoder = .stopped ∨
    w.exchange.client.wire.incoming = [] ∧ w.exchange.client.wire.ended = true
  ended : w.exchange.client.closed = true ↔ .ended ∈ t
  silent : ∀ before after, t = before ++ .ended :: after → heard after = []

variable {root : Path} {limit : Option Nat} {c : Client} {t : List RequestEvent} {w w' : Listening}
  {e : RequestEvent}

theorem heard_concat (t : List RequestEvent) (e : RequestEvent) :
    heard (t ++ [e]) = heard t ++ e.heard?.toList := by
  cases h : e.heard? <;> simp [heard, h]

theorem heard?_of_isQuiet (h : e.isQuiet = true) : e.heard? = none ∧ e ≠ .ended := by
  cases e <;> simp_all [RequestEvent.isQuiet, RequestEvent.heard?]

/-- Nothing is taken after the end, as long as the reader goes on only before it. -/
theorem silent_concat (h : ∀ before after, t = before ++ .ended :: after → heard after = [])
    (he : .ended ∈ t → e.heard? = none) :
    ∀ before after, t ++ [e] = before ++ .ended :: after → heard after = [] := by
  intro before after heq
  rcases List.eq_nil_or_concat' after with rfl | ⟨after, last, rfl⟩
  · rfl
  · rw [← List.cons_append, ← List.append_assoc] at heq
    obtain ⟨rfl, rfl⟩ := List.append_singleton_inj.mp heq
    rw [heard_concat, h before after rfl, he (by simp)]
    rfl

theorem kept_start (hc : Client.start root limit = .ok c) : Kept [] (start c) := by
  have hfresh : c.wire = .fresh ∧ c.decoder = .fresh ∧ c.closed = false := by
    simp only [Client.start] at hc
    split at hc
    · cases hc
    · obtain rfl := Except.ok.inj hc
      exact ⟨rfl, rfl, rfl⟩
  obtain ⟨hwire, hdecoder, hclosed⟩ := hfresh
  refine ⟨⟨[], ?_, ?_⟩, ?_, ?_, ?_, fun before after heq ↦ ?_⟩
  · simp [start, Exchange.start, hwire, Wire.fresh]
  · simp [start, Exchange.start, hdecoder, heard]
  · simp [start, Exchange.start, hdecoder, Decoder.fresh]
  · simp [start, Exchange.start, hclosed]
  · simp [start, Exchange.start, hclosed]
  · simp at heq

/-- What concerns the output neither way keeps what is known. -/
theorem Kept.of_sameStream {x : Exchange} (hw : Kept t w) (he : e.isQuiet = true)
    (h : w.exchange.client.SameStream x.client) : Kept (t ++ [e]) { w with exchange := x } := by
  obtain ⟨hnone, hne⟩ := heard?_of_isQuiet he
  obtain ⟨used, hbytes, hused⟩ := hw.bytes
  refine ⟨⟨used, ?_, ?_⟩, ?_, ?_, ?_, silent_concat hw.silent fun _ ↦ hnone⟩
  · rw [h.incoming]
    exact hbytes
  · rw [heard_concat, hnone, h.decoder, hused]
    simp
  · rw [h.decoder, h.closed]
    exact hw.stopped
  · rw [h.decoder, h.closed, h.incoming, h.ended]
    exact hw.closed
  · rw [h.closed, hw.ended]
    simp [Ne.symm hne]

/-- What the reader does keeps what is known. -/
theorem Kept.of_readerTakes {x : Exchange} (hw : Kept t w) (hopen : w.exchange.client.closed = false)
    (h : w.exchange.client.ReaderTakes w.exchange.client.reading x.client)
    (he : e = .ofReading w.exchange.client.reading) : Kept (t ++ [e]) { w with exchange := x } := by
  have hnot : .ended ∉ t := fun hmem ↦ by
    rw [hw.ended.mpr hmem] at hopen
    cases hopen
  have hsilent := silent_concat (e := e) hw.silent fun hmem ↦ absurd hmem hnot
  obtain ⟨used, hbytes, hused⟩ := hw.bytes
  have hall {more : List UInt8} {messages : List Json} {d : Decoder}
      (hmore : w.exchange.client.decoder.hear more = (messages, d)) :
      Decoder.fresh.hear (used ++ more) = (heard t ++ messages, d) := by
    rw [Decoder.hear_append, hused, hmore]
  rcases x with ⟨c', requests, notes, now⟩
  generalize w.exchange.client.reading = reading at h he
  subst he
  cases h with
  | answer hsame => exact hw.of_sameStream rfl hsame
  | @message _ more rest m hincoming hmore hsame =>
    have hclosed : c'.closed = false := hsame.closed.trans hopen
    have hdecoder : c'.decoder = .fresh := hsame.decoder
    refine ⟨⟨used ++ more, ?_, ?_⟩, ?_, ?_, ?_, hsilent⟩
    · rw [hsame.incoming, hbytes, hincoming, List.append_assoc]
    · rw [hsame.decoder, heard_concat, hall hmore]
      rfl
    · simp [hdecoder, Decoder.fresh]
    · simp [hclosed]
    · simp [hclosed, hnot, RequestEvent.ofReading]
  | part hmore hd =>
    refine ⟨⟨_, hbytes.trans (List.append_nil _).symm, ?_⟩, fun h ↦ absurd h hd, ?_, ?_, hsilent⟩
    · rw [heard_concat, hall hmore]
      rfl
    · simp [hopen]
    · simp [hopen, hnot, RequestEvent.ofReading]
  | broken hmore =>
    refine ⟨⟨_, hbytes.trans (List.append_nil _).symm, ?_⟩, fun _ ↦ rfl, fun _ ↦ Or.inl rfl, ?_, hsilent⟩
    · rw [heard_concat, hall hmore]
      rfl
    · simp [RequestEvent.ofReading]
  | finish hincoming hended =>
    refine ⟨⟨used, hbytes, ?_⟩, fun _ ↦ rfl, fun _ ↦ Or.inr ⟨hincoming, hended⟩, ?_, hsilent⟩
    · rw [heard_concat, hused]
      simp [RequestEvent.ofReading, RequestEvent.heard?]
    · simp [RequestEvent.ofReading]

/-- What the server writes keeps what is known. -/
theorem Kept.arrive {x : Exchange} {bytes : List UInt8} {accepts ended : Bool} (hw : Kept t w)
    (hopen : w.exchange.client.wire.ended = true → bytes = [])
    (hx : x.client =
      { w.exchange.client with wire := w.exchange.client.wire.serve bytes accepts ended }) :
    Kept (t ++ [.other]) ⟨x, w.arrived ++ bytes⟩ := by
  obtain ⟨used, hbytes, hused⟩ := hw.bytes
  rcases x with ⟨c', requests, notes, now⟩
  subst hx
  refine ⟨⟨used, ?_, ?_⟩, hw.stopped, fun hclosed ↦ ?_, ?_, silent_concat hw.silent fun _ ↦ rfl⟩
  · simp [Wire.serve, hbytes]
  · rw [heard_concat, hused]
    simp [RequestEvent.heard?]
  · refine (hw.closed hclosed).imp_right fun ⟨hincoming, hended⟩ ↦ ?_
    simp [Wire.serve, hincoming, hended, hopen hended]
  · rw [hw.ended]
    simp

theorem Kept.step (hw : Kept t w) (h : Step w e w') : Kept (t ++ [e]) w' := by
  cases h with
  | arrive bytes accepts ended hopen => exact hw.arrive hopen rfl
  | go h hbytes =>
    rcases h.streams with ⟨hquiet, hsame⟩ | ⟨hopen, htakes, he⟩ | ⟨bytes, accepts, ended, rfl, hx⟩
    · exact hw.of_sameStream hquiet hsame
    · exact hw.of_readerTakes hopen htakes he
    · -- The server cannot have written anything.
      have hlength := hbytes.length_le
      rw [hx, Wire.serve, List.length_append] at hlength
      obtain rfl : bytes = [] := List.length_eq_zero_iff.mp (by omega)
      simpa using hw.arrive (fun _ ↦ rfl) hx

theorem kept_of_run (hc : Client.start root limit = .ok c) (h : Run Step (start c) t w) : Kept t w :=
  h.invariant (kept_start hc) fun _ _ _ _ _ hu hstep ↦ hu.step hstep

/-- What has arrived is what was taken, and what the reader takes from the unread bytes. -/
theorem Kept.hear_arrived (hw : Kept t w) :
    Decoder.fresh.hear w.arrived =
      (heard t ++ (w.exchange.client.decoder.hear w.exchange.client.wire.incoming).1,
        (w.exchange.client.decoder.hear w.exchange.client.wire.incoming).2) := by
  obtain ⟨used, hbytes, hused⟩ := hw.bytes
  rw [hbytes, Decoder.hear_append, hused]

/-- When the client is closed, everything was taken, and the reader has stopped or the output has ended. -/
theorem Kept.allHeard (hw : Kept t w) (hclosed : w.exchange.client.closed = true) :
    heard t = (Decoder.fresh.hear w.arrived).1 ∧
      ((Decoder.fresh.hear w.arrived).2 = .stopped ∨ w.exchange.client.wire.ended = true) := by
  rw [hw.hear_arrived]
  rcases hw.closed hclosed with hstopped | ⟨hincoming, hended⟩
  · rw [hstopped, Decoder.hear_stopped]
    exact ⟨(List.append_nil _).symm, Or.inl rfl⟩
  · rw [hincoming]
    exact ⟨(List.append_nil _).symm, Or.inr hended⟩

/-- What was taken are the first messages of what has arrived. -/
theorem Kept.heard_prefix (hw : Kept t w) {messages : List Json} {stops : Bool}
    (hreads : Wire.Reads w.arrived messages stops) : heard t <+: messages := by
  obtain ⟨rfl, -⟩ := Decoder.hear_of_reads hreads
  rw [hw.hear_arrived]
  exact List.prefix_append _ _

/-- A reader that has nothing left to do, and owes the server no answer, has taken all messages. -/
theorem Kept.heard_eq (hw : Kept t w) (hturn : w.exchange.client.readerTurn = none)
    (hanswering : w.exchange.client.answering = none) {messages : List Json} {stops : Bool}
    (hreads : Wire.Reads w.arrived messages stops) : heard t = messages := by
  obtain ⟨rfl, -⟩ := Decoder.hear_of_reads hreads
  rcases Client.closed_or_of_readerTurn hturn hanswering with hclosed | ⟨hincoming, -⟩
  · exact (hw.allHeard hclosed).1
  · rw [hw.hear_arrived, hincoming]
    exact (List.append_nil _).symm

/-- In every run, the reader of a client takes the messages that the bytes of the server's output begin
with, up to their end or to the first ones that make no sense, and then closes the client. Messages that
were written, each of which is read back from its own text, are the messages of the bytes that were written;
these are all messages without real numbers that are not nested too deep. -/
theorem attentive_of_run (hc : Client.start root limit = .ok c) (h : Run Step (start c) t w) :
    Attentive t w ∧
      (∀ messages : List Json, (∀ m ∈ messages, Json.ofBytes? m.compact.toUTF8 = some m) →
        (∀ m ∈ messages, m.compact.toUTF8.size < wordValues 64) →
        Wire.Reads (messages.flatMap Wire.frame) messages false) ∧
      ∀ m : Json, m.Canonical → m.depth ≤ Json.maxDepth → Json.ofBytes? m.compact.toUTF8 = some m := by
  have hkept := kept_of_run hc h
  have harrived := hkept.hear_arrived
  refine ⟨⟨Decoder.existsUnique_reads _, ?_, ?_, ?_, hkept.ended, hkept.silent⟩, fun messages ↦ Wire.reads_frames,
    fun m ↦ Json.ofBytes?_compact⟩
  · intro messages stops hreads
    obtain ⟨rfl, -⟩ := Decoder.hear_of_reads hreads
    rw [harrived]
    exact List.prefix_append _ _
  · intro hclosed messages stops hreads
    obtain ⟨rfl, hstops⟩ := Decoder.hear_of_reads hreads
    obtain ⟨hall, hwhy⟩ := hkept.allHeard hclosed
    exact ⟨hall, hwhy.imp_left hstops.mp⟩
  · intro hturn hanswering messages stops hreads
    obtain ⟨rfl, hstops⟩ := Decoder.hear_of_reads hreads
    rcases Client.closed_or_of_readerTurn hturn hanswering with hclosed | ⟨hincoming, hgoes⟩
    · obtain ⟨hall, hwhy⟩ := hkept.allHeard hclosed
      exact ⟨hall, iff_of_true hclosed (hwhy.imp_left hstops.mp)⟩
    · rw [harrived, hincoming] at hstops ⊢
      refine ⟨(List.append_nil _).symm, ?_⟩
      rw [hgoes, ← hstops]
      simp only [Bool.false_eq_true, or_false]
      refine ⟨fun hclosed ↦ ?_, hkept.stopped⟩
      have hended := hkept.closed hclosed
      simpa [hgoes] using hended

/-- The server writes some bytes, if it has not ended its output, or the reader goes on. -/
def move (w : Listening) : Option (List UInt8) → Option (RequestEvent × Listening)
  | some bytes =>
    if w.exchange.client.wire.ended then none
    else
      some (.other,
        { exchange :=
            { w.exchange with
              client := { w.exchange.client with wire := w.exchange.client.wire.serve bytes true false } }
          arrived := w.arrived ++ bytes })
  | none =>
    (w.exchange.client.readerTurn.filter fun c ↦ c.wire.incoming <:+ w.exchange.client.wire.incoming).map
      fun c ↦ (.ofReading w.exchange.client.reading, { w with exchange := { w.exchange with client := c } })

theorem step_of_move {m : Option (List UInt8)} (h : w.move m = some (e, w')) : Step w e w' := by
  cases m with
  | some bytes =>
    simp only [move] at h
    split at h
    · cases h
    · rename_i hopen
      obtain ⟨rfl, rfl⟩ := Prod.mk.inj (Option.some.inj h)
      exact .arrive bytes true false fun hended ↦ absurd hended hopen
  | none =>
    obtain ⟨c, hc, heq⟩ := Option.map_eq_some_iff.mp h
    obtain ⟨rfl, rfl⟩ := Prod.mk.inj heq
    obtain ⟨hturn, hbytes⟩ := Option.filter_eq_some_iff.mp hc
    exact .go (.read hturn rfl) (of_decide_eq_true hbytes)

/-- A message arrives in two pieces, and after it the line that closes a header that there is not. The
reader takes the message, and closes the client. -/
theorem attentive_pieces :
    ∃ c t w, Client.start ⟨"/a"⟩ none = .ok c ∧ Run Step (start c) t w ∧
      (heard t).map Json.isNull = [true] ∧ w.exchange.client.closed = true ∧ Attentive t w := by
  -- The header of a message with four bytes, in two pieces, and the message with a line feed.
  let pieces : List (Option (List UInt8)) :=
    [some [67, 111, 110, 116, 101, 110, 116, 45, 76], none,
      some [101, 110, 103, 116, 104, 58, 32, 52, 13, 10, 13, 10, 110, 117, 108, 108, 10], none, none]
  obtain ⟨c, hc⟩ : ∃ c, Client.start ⟨"/a"⟩ none = .ok c := ⟨_, rfl⟩
  obtain ⟨t, w, hrun, hcheck⟩ := exists_run_of_play move (fun _ _ _ _ ↦ step_of_move) (start c) pieces
    (fun t w ↦ (heard t).map Json.isNull = [true] && w.exchange.client.closed)
    (by obtain rfl := Except.ok.inj hc; decide +kernel)
  obtain ⟨hheard, hclosed⟩ := (Bool.and_eq_true ..).mp hcheck
  exact ⟨c, t, w, hc, hrun, of_decide_eq_true hheard, hclosed, (attentive_of_run hc hrun).1⟩

end Listening

end CodeNav
