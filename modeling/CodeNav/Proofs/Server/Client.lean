import CodeNav.Server.Client
import Mathlib.Data.List.Basic

/-!
# What a client knows of its requests

A client knows which of its requests wait for an answer, and which answers have come that were not
taken yet. Most of what it does leaves this alone: only a request that begins or ends, a message that
answers a request, and the end of the server's output touch it.

## Main definitions

* `Client.answered?`: the request that a message answers
* `Client.Reading`, `Client.reading`: what the reader comes upon
* `Client.Writes`, `Client.Handles`, `Client.Reads`: what becomes of the client when a message is written,
  when one of the server is taken, and when the reader goes on
* `Client.Alike`: two clients that know the same of their requests
* `ServerCall.Outcome`: how a request may end

## Main statements

* `ServerCall.start_eq_ok`, `ServerCall.turn_eq_moved`, `ServerCall.turn_eq_finished`,
  `ServerCall.drop_eq`: what becomes of the client when a request goes on
* `Client.reads_of_readerTurn`, `Client.readerTurn_eq_some`: what becomes of it when the reader goes on
* `Client.Handles.mem_pending`, `Client.Handles.lookup_answers`: what a message does
-/

namespace CodeNav

/-- What a server may do at any time: it writes some bytes, takes messages from now on or does not,
and may end its output. -/
def Wire.serve (w : Wire) (bytes : List UInt8) (accepts ended : Bool) : Wire :=
  { w with incoming := w.incoming ++ bytes, accepts := accepts, ended := w.ended || ended }

namespace Client

variable {c c' : Client}

/-- The request that a message answers. A message with a method is no answer, and neither is one
without a number. -/
def answered? (message : Json) : Option Int :=
  match (message.field? "method").bind Json.string? with
  | some _ => none
  | none => (message.field? "id").bind idNumber?

/-- Two clients that know the same of their requests. -/
structure Alike (c c' : Client) : Prop where
  nextId : c'.nextId = c.nextId
  pending : c'.pending = c.pending
  answers : c'.answers = c.answers
  closed : c'.closed = c.closed

theorem alike_refl (c : Client) : Alike c c := ⟨rfl, rfl, rfl, rfl⟩

theorem alike_wire (c : Client) (wire : Wire) : Alike c { c with wire := wire } :=
  ⟨rfl, rfl, rfl, rfl⟩

theorem alike_queue (c : Client) : Alike c c.queue.2 := ⟨rfl, rfl, rfl, rfl⟩

theorem alike_unqueue (c : Client) (ticket : Nat) : Alike c (c.unqueue ticket) :=
  ⟨rfl, rfl, rfl, rfl⟩

/-- Whoever holds the writer writes its message, unless the server takes none. -/
inductive Writes (c : Client) (ticket : Nat) (message : Json) : Except SessionError Unit → Client → Prop
  | written (hholder : c.writer.isHolder ticket = true) (haccepts : c.wire.accepts = true) :
      Writes c ticket message (.ok ())
        ({ c with wire := { c.wire with written := c.wire.written ++ [message] } }.unqueue ticket)
  | broken (hholder : c.writer.isHolder ticket = true) (haccepts : c.wire.accepts = false) :
      Writes c ticket message (.error brokenPipe) (c.unqueue ticket)

theorem writes_of_write {ticket : Nat} {message : Json} {r : Except SessionError Unit}
    (h : c.write? ticket message = some (r, c')) : c.Writes ticket message r c' := by
  simp only [write?, Wire.write] at h
  split at h
  · rename_i hholder
    split at h <;> rename_i hwrite <;> split at hwrite <;> rename_i haccepts
    · obtain rfl := Option.some.inj hwrite
      obtain ⟨rfl, rfl⟩ := Prod.mk.inj (Option.some.inj h)
      exact .written hholder haccepts
    · cases hwrite
    · cases hwrite
    · obtain ⟨rfl, rfl⟩ := Prod.mk.inj (Option.some.inj h)
      exact .broken hholder (by simpa using haccepts)
  · cases h

/-- Whether a message is written or not, it is the writer only that goes on. -/
theorem alike_write {ticket : Nat} {message : Json} {r : Except SessionError Unit}
    (h : c.write? ticket message = some (r, c')) : Alike c c' := by
  cases writes_of_write h <;> exact ⟨rfl, rfl, rfl, rfl⟩

/-- A message is written, or the pipe is broken. -/
theorem write_eq_error {ticket : Nat} {message : Json} {e : SessionError}
    (h : c.write? ticket message = some (.error e, c')) : e = brokenPipe := by
  cases writes_of_write h
  rfl

/-- A client that was just started knows of no request. -/
theorem of_start {root : Path} {limit : Option Nat} (h : start root limit = .ok c) :
    c.nextId = 1 ∧ c.pending = [] ∧ c.answers = [] ∧ c.closed = false := by
  simp only [start] at h
  split at h
  · simp at h
  · obtain rfl := Except.ok.inj h
    exact ⟨rfl, rfl, rfl, rfl⟩

/-! ### Messages of the server -/

theorem answered?_of_method {m : Json} {method : String}
    (h : (m.field? "method").bind Json.string? = some method) : answered? m = none := by
  simp only [answered?, h]

/-- What comes of a message: a question of the server is owed its answer, an answer goes to the request
that waits for it, and anything else comes to nothing. -/
inductive Handles (c : Client) (m : Json) : Client → Prop
  | asks {method : String} {id : Json} (hmethod : (m.field? "method").bind Json.string? = some method)
      (hid : m.field? "id" = some id) (hnull : id.isNull = false) :
      Handles c m { c.queue.2 with
        answering := some (c.queue.1, answerMessage id method (m.field? "params") c.rootUri c.rootName) }
  | answers {id : Nat} (hanswers : answered? m = some (id : Int)) (hpending : id ∈ c.pending) :
      Handles c m { c with
        pending := c.pending.filter (· ≠ id)
        answers := c.answers ++ [(id, m)] }
  | ignores (hanswers : ∀ id ∈ c.pending, answered? m ≠ some (id : Int))
      (hasks : (m.field? "method").bind Json.string? = none ∨ ∀ id, m.field? "id" = some id → id = .null) :
      Handles c m c

theorem handles (c : Client) (m : Json) : c.Handles m (c.handle m) := by
  simp only [handle]
  split
  · rename_i method id hmethod hid
    obtain ⟨hid, hnull⟩ := Option.filter_eq_some_iff.mp hid
    exact .asks hmethod hid (by simpa using hnull)
  · rename_i id hmethod hid
    have hanswered : answered? m = idNumber? id := by
      simp only [answered?, hmethod, (Option.filter_eq_some_iff.mp hid).1, Option.bind_some]
    split
    · rename_i i hi
      split
      · rename_i hwaits
        exact .answers (by rw [hanswered, hi, Int.toNat_of_nonneg hwaits.1]) hwaits.2
      · rename_i hnot
        refine .ignores (fun id hmem heq ↦ hnot ?_) (Or.inl hmethod)
        obtain rfl := Option.some.inj (hi.symm.trans (hanswered.symm.trans heq))
        exact ⟨Int.natCast_nonneg id, by simpa using hmem⟩
    · rename_i hi
      exact .ignores (fun id _ heq ↦ nomatch hi.symm.trans (hanswered.symm.trans heq)) (Or.inl hmethod)
  · rename_i hid
    have hnull : ∀ id, m.field? "id" = some id → id = .null := by
      intro id hfield
      rw [hfield] at hid
      cases id with
      | null => rfl
      | _ => cases hid
    refine .ignores (fun id _ heq ↦ ?_) (Or.inr hnull)
    -- Null is no number.
    simp only [answered?] at heq
    split at heq
    · cases heq
    · obtain ⟨j, hj, hnumber⟩ := Option.bind_eq_some_iff.mp heq
      rw [hnull j hj] at hnumber
      cases hnumber

namespace Handles

variable {m : Json}

/-- What is no answer does not concern the requests. -/
theorem alike (h : c.Handles m c') (hm : answered? m = none) : Alike c c' := by
  cases h with
  | asks => exact ⟨rfl, rfl, rfl, rfl⟩
  | answers hanswers => exact absurd (hm.symm.trans hanswers) nofun
  | ignores => exact alike_refl c

/-- A request waits for its answer until a message answers it. -/
theorem mem_pending (h : c.Handles m c') (id : Nat) :
    id ∈ c'.pending ↔ id ∈ c.pending ∧ answered? m ≠ some (id : Int) := by
  cases h with
  | asks hmethod => simp [answered?_of_method hmethod, queue]
  | answers hanswers =>
    simp only [List.mem_filter, decide_eq_true_eq, hanswers, ne_eq, Option.some.injEq, Int.natCast_inj]
    exact and_congr_right fun _ ↦ not_congr eq_comm
  | ignores hanswers => exact ⟨fun hmem ↦ ⟨hmem, hanswers id hmem⟩, And.left⟩

/-- The answer that has come to a request is the first message that answers it while it waits. -/
theorem lookup_answers (h : c.Handles m c') (id : Nat) :
    c'.answers.lookup id =
      (c.answers.lookup id).or
        (if answered? m = some (id : Int) ∧ id ∈ c.pending then some m else none) := by
  cases h with
  | asks hmethod => simp [answered?_of_method hmethod, queue]
  | @answers i hanswers hpending =>
    simp only [List.lookup_append, hanswers, Option.some.injEq, Int.natCast_inj]
    by_cases hid : id = i
    · subst hid
      simp [hpending]
    · simp [List.lookup_cons, beq_eq_false_iff_ne.mpr hid, Ne.symm hid]
  | ignores hanswers =>
    rw [if_neg fun hand ↦ hanswers id hand.2 hand.1, Option.or_none]

/-- An answer that the client has is one that it had, or the message. -/
theorem mem_answers (h : c.Handles m c') {a : Nat × Json} (ha : a ∈ c'.answers) :
    a ∈ c.answers ∨ (a.2 = m ∧ answered? m = some (a.1 : Int)) := by
  cases h with
  | asks | ignores => exact Or.inl ha
  | answers hanswers =>
    refine (List.mem_append.mp ha).imp_right fun ha ↦ ?_
    obtain rfl := List.mem_singleton.mp ha
    exact ⟨rfl, hanswers⟩

theorem nextId (h : c.Handles m c') : c'.nextId = c.nextId := by
  cases h <;> rfl

theorem closed (h : c.Handles m c') : c'.closed = c.closed := by
  cases h <;> rfl

theorem sublist_pending (h : c.Handles m c') : c'.pending.Sublist c.pending := by
  cases h with
  | asks | ignores => exact List.Sublist.refl _
  | answers => exact List.filter_sublist

/-- An answer that no request waits for changes nothing. -/
theorem eq_self (h : c.Handles m c') (hmethod : (m.field? "method").bind Json.string? = none)
    (hanswers : ∀ id ∈ c.pending, answered? m ≠ some (id : Int)) : c' = c := by
  cases h with
  | asks hasks => exact absurd (hmethod.symm.trans hasks) nofun
  | answers hanswer hpending => exact absurd hanswer (hanswers _ hpending)
  | ignores => rfl

end Handles

/-! ### The reader -/

/-- What the reader comes upon when it goes on. -/
inductive Reading where
  | nothing
  | message (message : Json)
  /-- The server's output has ended, or makes no sense. -/
  | ended

/-- The message that the reader comes upon. -/
def Reading.message? : Reading → Option Json
  | .message m => some m
  | _ => none

theorem Reading.message?_eq_some {r : Reading} {m : Json} :
    r.message? = some m ↔ r = .message m := by
  cases r <;> simp [message?]

/-- What the reader comes upon when it goes on. It does not read while it owes the server an
answer. -/
def reading (c : Client) : Reading :=
  match c.answering, c.wire.incoming with
  | some _, _ => .nothing
  | none, [] => .ended
  | none, bytes =>
    match c.decoder.feed bytes with
    | (_, some message, _) => .message message
    | (decoder, none, _) => if decoder = .stopped then .ended else .nothing

/-- What becomes of the client with what the reader comes upon. -/
def after (c : Client) : Reading → Client
  | .nothing => c
  | .message message => c.handle message
  | .ended => c.close

theorem reading_of_incoming (hanswering : c.answering = none) (hincoming : c.wire.incoming ≠ []) :
    c.reading =
      match c.decoder.feed c.wire.incoming with
      | (_, some message, _) => .message message
      | (decoder, none, _) => if decoder = .stopped then .ended else .nothing := by
  simp only [reading, hanswering]

/-- The reader goes on: it writes the answer that it owes, takes bytes with a message or without one, or
comes to the end. -/
inductive Reads (c : Client) : Reading → Client → Prop
  | answers {ticket : Nat} {message : Json} {r : Except SessionError Unit} {c' : Client}
      (hanswering : c.answering = some (ticket, message))
      (hwrite : c.write? ticket message = some (r, c')) : Reads c .nothing { c' with answering := none }
  | hears {decoder : Decoder} {m : Json} {rest : List UInt8} (hanswering : c.answering = none)
      (hincoming : c.wire.incoming ≠ [])
      (hfeed : c.decoder.feed c.wire.incoming = (decoder, some m, rest)) :
      Reads c (.message m)
        ({ c with decoder := decoder, wire := { c.wire with incoming := rest } }.handle m)
  | waits {decoder : Decoder} {rest : List UInt8} (hanswering : c.answering = none)
      (hincoming : c.wire.incoming ≠ [])
      (hfeed : c.decoder.feed c.wire.incoming = (decoder, none, rest)) (hdecoder : decoder ≠ .stopped) :
      Reads c .nothing { c with decoder := decoder, wire := { c.wire with incoming := rest } }
  | breaks {rest : List UInt8} (hanswering : c.answering = none) (hincoming : c.wire.incoming ≠ [])
      (hfeed : c.decoder.feed c.wire.incoming = (.stopped, none, rest)) :
      Reads c .ended
        ({ c with decoder := .stopped, wire := { c.wire with incoming := rest } }.close)
  | ends (hanswering : c.answering = none) (hincoming : c.wire.incoming = [])
      (hended : c.wire.ended = true) : Reads c .ended c.close

/-- The reader goes on only before the end. -/
theorem reads_of_readerTurn (h : c.readerTurn = some c') : c.closed = false ∧ c.Reads c.reading c' := by
  simp only [readerTurn] at h
  split at h
  · cases h
  · rename_i hopen
    refine ⟨by simpa using hopen, ?_⟩
    split at h
    · rename_i ticket message hanswering
      obtain ⟨⟨r, c₁⟩, hwrite, rfl⟩ := Option.map_eq_some_iff.mp h
      simp only [reading, hanswering]
      exact .answers hanswering hwrite
    · rename_i hanswering
      split at h
      · rename_i hincoming
        split at h
        · obtain rfl := Option.some.inj h
          simp only [reading, hanswering, hincoming]
          exact .ends hanswering hincoming ‹_›
        · cases h
      · rename_i hincoming
        rw [reading_of_incoming hanswering hincoming]
        rcases hfeed : c.decoder.feed c.wire.incoming with ⟨decoder, _ | m, rest⟩ <;>
          simp only [hfeed] at h ⊢
        · split at h <;> rename_i hdecoder <;> obtain rfl := Option.some.inj h
          · subst hdecoder
            simpa using Reads.breaks hanswering hincoming hfeed
          · simpa [hdecoder] using Reads.waits hanswering hincoming hfeed hdecoder
        · obtain rfl := Option.some.inj h
          exact .hears hanswering hincoming hfeed

/-- The reader does what it should with what it comes upon. -/
theorem readerTurn_eq_some (h : c.readerTurn = some c') :
    c.closed = false ∧ ∃ c₀, Alike c c₀ ∧ c' = c₀.after c.reading := by
  obtain ⟨hopen, hreads⟩ := reads_of_readerTurn h
  refine ⟨hopen, ?_⟩
  generalize c.reading = reading at hreads ⊢
  cases hreads with
  | @answers _ _ _ c₁ _ hwrite =>
    have halike := alike_write hwrite
    exact ⟨{ c₁ with answering := none },
      ⟨halike.nextId, halike.pending, halike.answers, halike.closed⟩, rfl⟩
  | @hears decoder _ rest | @waits decoder rest =>
    exact ⟨{ c with decoder := decoder, wire := { c.wire with incoming := rest } }, ⟨rfl, rfl, rfl, rfl⟩, rfl⟩
  | @breaks rest =>
    exact ⟨{ c with decoder := .stopped, wire := { c.wire with incoming := rest } }, ⟨rfl, rfl, rfl, rfl⟩, rfl⟩
  | ends => exact ⟨c, alike_refl c, rfl⟩

/-- A request that waits has its answer when the reader has taken one. -/
theorem lookup_of_readerTurn {m : Json} {id : Nat} (h : c.readerTurn = some c')
    (hreading : c.reading = .message m) (hm : answered? m = some (id : Int))
    (hpending : id ∈ c.pending) (hnone : c.answers.lookup id = none) :
    c'.answers.lookup id = some m := by
  obtain ⟨-, c₀, hc₀, rfl⟩ := readerTurn_eq_some h
  rw [hreading, after, (c₀.handles m).lookup_answers, hc₀.answers, hc₀.pending, hnone]
  simp [hm, hpending]

/-- With a message that the reader comes upon, it reads some bytes and takes the message. -/
theorem readerTurn_of_message (h : c.readerTurn = some c') {m : Json}
    (hm : c.reading = .message m) :
    ∃ rest decoder, c' =
      { c with wire := { c.wire with incoming := rest }, decoder := decoder }.handle m := by
  have hreads := (reads_of_readerTurn h).2
  rw [hm] at hreads
  cases hreads with
  | hears => exact ⟨_, _, rfl⟩

end Client

/-! ### Messages without an answer -/

namespace Note

variable {c c' : Client} {n : Note}

theorem alike_start {method : String} {params : Json} (h : start method params c = .ok (n, c')) :
    c.Alike c' := by
  simp only [start] at h
  split at h
  · simp at h
  · obtain ⟨-, rfl⟩ := Prod.mk.inj (Except.ok.inj h)
    exact c.alike_queue

theorem alike_turn {r : Except SessionError Unit} (h : n.turn c = .finished r c') : c.Alike c' := by
  simp only [turn] at h
  split at h
  · simp at h
  · rename_i r' c₁ hwrite
    obtain ⟨-, rfl⟩ := Turn.finished.inj h
    exact Client.alike_write hwrite

theorem turn_ne_moved {n' : Note} : n.turn c ≠ .moved n' c' := by
  simp only [turn]
  split <;> simp

end Note

/-! ### Requests -/

namespace ServerCall

variable {c c' : Client} {r r' : ServerCall} {now : Nat}

/-- The method of a request. -/
def method : ServerCall → String
  | writing _ _ method _ _ => method
  | awaiting _ method _ _ => method

/-- How long a request waits for its answer. -/
def limit : ServerCall → Option Nat
  | writing _ _ _ limit _ => limit
  | awaiting _ _ limit _ => limit

/-- A request takes the next number, and is known to the client from then on. -/
theorem start_eq_ok {m : String} {params : Json} {l : Option Nat}
    (h : start m params l c = .ok (r, c')) :
    c.closed = false ∧ c'.nextId = c.nextId + 1 ∧ c'.pending = c.pending ++ [c.nextId] ∧
      c'.answers = c.answers ∧ c'.closed = false ∧
      ∃ ticket, r = .writing c.nextId ticket m l (Client.requestMessage c.nextId m params) := by
  simp only [start] at h
  split at h
  · simp at h
  · rename_i hopen
    obtain ⟨rfl, rfl⟩ := Prod.mk.inj (Except.ok.inj h)
    have hopen : c.closed = false := by simpa using hopen
    exact ⟨hopen, rfl, rfl, rfl, hopen, _, rfl⟩

/-- A request is refused only after the end of the server's output. -/
theorem start_eq_error {m : String} {params : Json} {l : Option Nat} {e : SessionError}
    (h : start m params l c = .error e) : c.closed = true ∧ e = .closed := by
  simp only [start] at h
  split at h
  · rename_i hclosed
    exact ⟨hclosed, (Except.error.inj h).symm⟩
  · simp at h

theorem start_of_closed (h : c.closed = true) (m : String) (params : Json) (l : Option Nat) :
    start m params l c = .error .closed := by
  simp only [start, h, if_true]

/-- How a request may end: its writing fails, its answer has come, the server's output has ended, or
it is late. -/
inductive Ends (now : Nat) (c : Client) : ServerCall → Except SessionError Json → Prop
  | broken {id ticket : Nat} {m : String} {l : Option Nat} {message : Json} :
      Ends now c (.writing id ticket m l message) (.error Client.brokenPipe)
  | answered {id : Nat} {m : String} {l deadline : Option Nat} {answer : Json}
      (h : c.answers.lookup id = some answer) :
      Ends now c (.awaiting id m l deadline) (outcome m answer)
  | closed {id : Nat} {m : String} {l deadline : Option Nat} (h : c.answers.lookup id = none)
      (hp : id ∉ c.pending) : Ends now c (.awaiting id m l deadline) (.error .closed)
  | late {id t : Nat} {m : String} {l : Option Nat} (h : c.answers.lookup id = none)
      (hp : id ∈ c.pending) (ht : t ≤ now) :
      Ends now c (.awaiting id m l (some t)) (.error (.timeout m (l.getD 0)))

/-- A request that goes on was written, and its time begins. -/
theorem turn_eq_moved (h : r.turn now c = .moved r' c') :
    c.Alike c' ∧ ∃ ticket message, r = .writing r.id ticket r.method r.limit message ∧
      r' = .awaiting r.id r.method r.limit (r.limit.map (now + ·)) := by
  cases r with
  | writing id ticket m l message =>
    simp only [turn] at h
    split at h
    · simp at h
    · simp at h
    · rename_i hwrite
      obtain ⟨rfl, rfl⟩ := Turn.moved.inj h
      exact ⟨Client.alike_write hwrite, ticket, message, rfl, rfl⟩
  | awaiting id m l deadline =>
    simp only [turn] at h
    split at h
    · simp at h
    · split at h
      · simp at h
      · split at h
        · split at h <;> simp at h
        · simp at h

/-- A request that ends is forgotten. -/
theorem turn_eq_finished {res : Except SessionError Json} (h : r.turn now c = .finished res c') :
    Ends now c r res ∧ ∃ c₀, c.Alike c₀ ∧ c' = forget c₀ r.id := by
  cases r with
  | writing id ticket m l message =>
    simp only [turn] at h
    split at h
    · simp at h
    · rename_i hwrite
      obtain ⟨rfl, rfl⟩ := Turn.finished.inj h
      obtain rfl := Client.write_eq_error hwrite
      exact ⟨.broken, _, Client.alike_write hwrite, rfl⟩
    · simp at h
  | awaiting id m l deadline =>
    simp only [turn] at h
    split at h
    · rename_i hanswer
      obtain ⟨rfl, rfl⟩ := Turn.finished.inj h
      exact ⟨.answered hanswer, c, c.alike_refl, rfl⟩
    · rename_i hnone
      split at h
      · rename_i hp
        obtain ⟨rfl, rfl⟩ := Turn.finished.inj h
        exact ⟨.closed hnone hp, c, c.alike_refl, rfl⟩
      · rename_i hp
        split at h
        · split at h
          · rename_i ht
            obtain ⟨rfl, rfl⟩ := Turn.finished.inj h
            exact ⟨.late hnone (Decidable.not_not.mp hp) ht, c, c.alike_refl, rfl⟩
          · simp at h
        · simp at h

/-- A request that is given up is forgotten. -/
theorem drop_eq (r : ServerCall) (c : Client) :
    ∃ c₀, c.Alike c₀ ∧ r.drop c = forget c₀ r.id := by
  cases r with
  | writing id ticket m l message => exact ⟨_, c.alike_unqueue ticket, rfl⟩
  | awaiting id m l deadline => exact ⟨c, c.alike_refl, rfl⟩

theorem mem_pending_forget (c : Client) (id i : Nat) :
    i ∈ (forget c id).pending ↔ i ∈ c.pending ∧ i ≠ id := by
  simp [forget]

theorem lookup_answers_forget (c : Client) (id i : Nat) :
    (forget c id).answers.lookup i = if i = id then none else c.answers.lookup i := by
  simp only [forget]
  induction c.answers with
  | nil => simp
  | cons a answers ih =>
    obtain ⟨j, m⟩ := a
    by_cases hj : j = id
    · subst hj
      rw [List.filter_cons_of_neg (by simp), ih]
      by_cases hi : i = j
      · simp [hi]
      · rw [if_neg hi, if_neg hi, List.lookup_cons, beq_eq_false_iff_ne.mpr hi]
    · rw [List.filter_cons_of_pos (by simpa using hj), List.lookup_cons, ih, List.lookup_cons]
      by_cases hi : i = j
      · subst hi
        simp [hj]
      · simp [beq_eq_false_iff_ne.mpr hi]

end ServerCall

end CodeNav
