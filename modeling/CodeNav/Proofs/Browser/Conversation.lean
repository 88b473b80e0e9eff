import CodeNav.Proofs.Browser.Bridge
import CodeNav.Proofs.Browser.Replies
import CodeNav.Proofs.Frame.Sending

/-!
# Messages and their replies

Handlers are numbered as the messages that a bridge can read. A handler replies when it is over, and not
again; what was given up does not reply. The replies wait in the outbox in the order in which the handlers
ended, and each of them is written as one frame, so what the browser gets is a stream of frames, in which
every reply repeats the address of its own message.

## Main definitions

* `TalkEvent`, `BridgeWorld.Talk`: the steps of a bridge, with what is said in them
* `BridgeWorld.Heard`: how far messages have come
* `BridgeWorld.Posted`: how far replies have come

## Main statements

* `BridgeWorld.exists_talk`: every step of a bridge has its event
* `BridgeWorld.Heard.step`, `BridgeWorld.Posted.step`: what a step does to messages and replies
* `BridgeWorld.conversation_of_run`: every reply is one to a message of its own
-/

namespace CodeNav

/-- What the browser and a bridge say. -/
inductive TalkEvent where
  /-- The browser writes. -/
  | sent (bytes : List UInt8)
  /-- A handler is over. -/
  | replied (handler : Nat) (reply : Reply)
  /-- Something else. -/
  | other

namespace TalkEvent

/-- The bytes that the browser writes. -/
def bytes : TalkEvent → List UInt8
  | sent bytes => bytes
  | _ => []

/-- A reply, with the number of its handler. -/
def reply? : TalkEvent → Option (Nat × Reply)
  | replied n r => some (n, r)
  | _ => none

/-- All that the browser writes. -/
def stream (t : List TalkEvent) : List UInt8 := t.flatMap bytes

/-- All replies, in the order in which the handlers ended. -/
def replies (t : List TalkEvent) : List (Nat × Reply) := t.filterMap reply?

variable {t : List TalkEvent}

@[simp]
theorem stream_concat (e : TalkEvent) : stream (t ++ [e]) = stream t ++ e.bytes := by
  simp [stream]

@[simp]
theorem replies_concat (e : TalkEvent) : replies (t ++ [e]) = replies t ++ e.reply?.toList := by
  cases h : e.reply? <;> simp [replies, h]

end TalkEvent

/-- The messages of some values, without those that cannot be read. -/
def PageMessage.listOf (values : List Json) : List PageMessage :=
  values.filterMap fun v ↦ (PageMessage.ofJson v).toOption

theorem PageMessage.listOf_append (l l' : List Json) : listOf (l ++ l') = listOf l ++ listOf l' :=
  List.filterMap_append

open TalkEvent (stream replies)
open PageMessage (listOf)

theorem Bridge.handlersOf_eq (values : List Json) :
    handlersOf values = (listOf values).map fun m ↦ some (.begin m) := by
  rw [listOf, List.map_filterMap]
  rfl

namespace Bridge

variable {b b' : Bridge}

/-- A phase in which sessions are being closed, or replies are still to be written. -/
def IsLeaving (phase : BridgePhase) : Prop := phase ≠ .serving ∧ phase ≠ .ended

theorem beginClosing_eq (b : Bridge) : ∃ s phase, IsLeaving phase ∧
    b.beginClosing = { b with state := s, handlers := b.handlers.map fun _ ↦ none, phase := phase } := by
  obtain ⟨x, r, hbegin⟩ : ∃ x r, Eviction.begin .all (dropAll b.handlers b.state).sessions = (x, r) :=
    ⟨_, _, rfl⟩
  simp only [beginClosing, hbegin]
  cases x with
  | inl e => exact ⟨_, _, ⟨by simp, by simp⟩, rfl⟩
  | inr any => exact ⟨_, _, ⟨by simp, by simp⟩, rfl⟩

/-- The reader takes some bytes, or notices that the input has ended. -/
theorem readTurn_cases (h : b.readTurn = some b') : b.phase = .serving ∧
    ((b.input = [] ∧ ∃ s phase, IsLeaving phase ∧
        b' = { b with state := s, handlers := b.handlers.map fun _ ↦ none, phase := phase }) ∨
      (b.input ≠ [] ∧ ∃ taken rest, b.input = taken ++ rest ∧ b' = { b with
        input := rest
        framer := (b.framer.deliver taken).2
        handlers := b.handlers ++ handlersOf (b.framer.deliver taken).1.values })) := by
  simp only [readTurn] at h
  split at h
  · rename_i hserving
    refine ⟨hserving, ?_⟩
    split at h
    · rename_i hinput
      split at h <;> cases h
      exact Or.inl ⟨hinput, b.beginClosing_eq⟩
    · rename_i hinput
      cases h
      exact Or.inr ⟨hinput, _, _, (List.take_append_drop readSize _).symm, rfl⟩
  · cases h

/-- A handler goes on, or is over. -/
theorem handlerTurn_cases {v : Service} {now n strand : Nat} {news : HandlerNews}
    (h : b.handlerTurn v now n strand news = .moved () b') :
    ∃ handler, b.handlers[n]? = some (some handler) ∧
      ((∃ handler' s, handler.turn v now strand news b.state = .moved handler' s ∧
          b' = { b with state := s, handlers := b.handlers.set n (some handler') }) ∨
        ∃ r s, handler.turn v now strand news b.state = .finished r s ∧
          b' = { b with state := s, handlers := b.handlers.set n none, outbox := b.outbox ++ [r] }) := by
  simp only [handlerTurn] at h
  split at h
  · cases h
  · rename_i handler hjoin
    refine ⟨handler, Option.join_eq_some_iff.mp hjoin, ?_⟩
    split at h
    · cases h
    · rename_i handler' s hturn
      cases h
      exact Or.inl ⟨handler', s, hturn, rfl⟩
    · rename_i r s hturn
      cases h
      exact Or.inr ⟨r, s, hturn, rfl⟩

theorem closeTurn_eq_moved {now strand : Nat} (h : b.closeTurn now strand = .moved () b') :
    IsLeaving b.phase ∧ ∃ s phase, IsLeaving phase ∧ b' = { b with state := s, phase := phase } := by
  simp only [closeTurn] at h
  split at h
  · rename_i e hclosing
    refine ⟨by simp [IsLeaving, hclosing], ?_⟩
    split at h <;> cases h
    · exact ⟨_, _, ⟨by simp, by simp⟩, rfl⟩
    · exact ⟨_, _, ⟨by simp, by simp⟩, rfl⟩
  · cases h

/-- The writer writes a reply, or notices that there will be no more. -/
theorem writeTurn_cases (h : b.writeTurn = some b') :
    (∃ r rest, b.outbox = r :: rest ∧ b' = { b with
        outbox := rest
        written := if (Frame.encode r.toJson).isSome then b.written ++ [r.toJson] else b.written }) ∨
      (b.outbox = [] ∧ b.phase = .draining ∧ b' = { b with phase := .ended }) := by
  simp only [writeTurn] at h
  split at h
  · rename_i r rest houtbox
    cases h
    exact Or.inl ⟨r, rest, houtbox, rfl⟩
  · rename_i houtbox
    split at h
    · rename_i hdraining
      cases h
      exact Or.inr ⟨houtbox, hdraining, rfl⟩
    · cases h

end Bridge

namespace BridgeWorld

variable {v : Service} {w w' : BridgeWorld} {e : TalkEvent} {t more : List TalkEvent} {n : Nat}
  {root : Path} {options : SessionOptions} {checkouts : Checkouts}

/-- The steps of a bridge, with what is said in them. -/
inductive Talk (v : Service) (w : BridgeWorld) : TalkEvent → BridgeWorld → Prop
  | send (bytes : List UInt8) (hopen : w.bridge.inputEnded = false) :
      Talk v w (.sent bytes) { w with bridge := { w.bridge with input := w.bridge.input ++ bytes } }
  | reply {n strand : Nat} {news : HandlerNews} {h : Handler} {r : Reply} {s : ServiceState}
      (hn : w.bridge.handlers[n]? = some (some h))
      (hturn : h.turn v w.now strand news w.bridge.state = .finished r s) :
      Talk v w (.replied n r) { w with bridge := { w.bridge with
        state := s, handlers := w.bridge.handlers.set n none, outbox := w.bridge.outbox ++ [r] } }
  /-- Nothing is sent, and nobody replies. -/
  | go {e : BridgeEvent} {w' : BridgeWorld} (h : w.Step v e w') (hinput : w'.bridge.input <:+ w.bridge.input)
      (houtbox : w'.bridge.outbox <:+ w.bridge.outbox) : Talk v w .other w'

theorem Talk.exists_step (h : w.Talk v e w') : ∃ e', w.Step v e' w' := by
  cases h with
  | send bytes hopen => exact ⟨_, .send bytes hopen⟩
  | @reply n strand news _ r s hn hturn =>
    have hbridge : w.bridge.handlerTurn v w.now n strand news = .moved () { w.bridge with
        state := s, handlers := w.bridge.handlers.set n none, outbox := w.bridge.outbox ++ [r] } := by
      simp [Bridge.handlerTurn, hn, hturn]
    exact ⟨_, .turn hbridge⟩
  | go h => exact ⟨_, h⟩

theorem talk_of_readTurn {b : Bridge} (h : w.bridge.readTurn = some b) :
    w.Talk v .other { w with bridge := b } := by
  obtain ⟨-, ⟨hinput, s, phase, -, rfl⟩ | ⟨hinput, taken, rest, htaken, rfl⟩⟩ := Bridge.readTurn_cases h
  · exact .go (.giveUp hinput h) (List.suffix_refl _) (List.suffix_refl _)
  · exact .go (.read hinput h) ⟨taken, htaken.symm⟩ (List.suffix_refl _)

theorem talk_of_writeTurn {b : Bridge} (h : w.bridge.writeTurn = some b) :
    w.Talk v .other { w with bridge := b } := by
  obtain ⟨r, rest, houtbox, rfl⟩ | ⟨-, -, rfl⟩ := Bridge.writeTurn_cases h
  · exact .go (.write h) (List.suffix_refl _) ⟨[r], houtbox.symm⟩
  · exact .go (.write h) (List.suffix_refl _) (List.suffix_refl _)

/-- Every step of a bridge has its event. -/
theorem exists_talk {e : BridgeEvent} (h : w.Step v e w') : ∃ e', w.Talk v e' w' := by
  cases h with
  | send bytes hopen => exact ⟨_, .send bytes hopen⟩
  | turn h =>
    obtain ⟨handler, hn, ⟨handler', s, -, rfl⟩ | ⟨r, s, hover, rfl⟩⟩ := Bridge.handlerTurn_cases h
    · exact ⟨_, .go (.turn h) (List.suffix_refl _) (List.suffix_refl _)⟩
    · exact ⟨_, .reply hn hover⟩
  | read _ h | giveUp _ h => exact ⟨_, talk_of_readTurn h⟩
  | write h => exact ⟨_, talk_of_writeTurn h⟩
  | close h =>
    obtain ⟨-, s, phase, -, rfl⟩ := Bridge.closeTurn_eq_moved h
    exact ⟨_, .go (.close h) (List.suffix_refl _) (List.suffix_refl _)⟩
  | hangUp => exact ⟨_, .go .hangUp (List.suffix_refl _) (List.suffix_refl _)⟩
  | inside h hbroken => exact ⟨_, .go (.inside h hbroken) (List.suffix_refl _) (List.suffix_refl _)⟩
  | change checkouts => exact ⟨_, .go (.change checkouts) (List.suffix_refl _) (List.suffix_refl _)⟩
  | pass d => exact ⟨_, .go (.pass d) (List.suffix_refl _) (List.suffix_refl _)⟩

/-- A run of a bridge is one with what is said in it. -/
theorem exists_talk_of_run {t : List BridgeEvent} (h : Run (Step v) w t w') :
    ∃ t', t'.length = t.length ∧ Run (Talk v) w t' w' := by
  induction h with
  | nil => exact ⟨[], rfl, .nil⟩
  | snoc _ hstep ih =>
    obtain ⟨t', hlen, hrun⟩ := ih
    obtain ⟨e', htalk⟩ := exists_talk hstep
    exact ⟨t' ++ [e'], by simp [hlen], hrun.snoc htalk⟩

/-! ### Messages -/

/-- How far messages have come, of which those with the given payloads were read. -/
structure Heard (payloads : List (List UInt8)) (t : List TalkEvent) (w : BridgeWorld) : Prop where
  read : ∃ held, w.bridge.framer.Holds held ∧
    stream t = payloads.flatMap Frame.ofPayload ++ held ++ w.bridge.input
  fits : ∀ payload ∈ payloads, payload.length < wordValues 32
  handled : w.bridge.handlers.length = (listOf (payloads.filterMap Frame.payload?)).length
  /-- A handler that goes on is that of its message. -/
  going : ∀ (n : Nat) (h : Handler), w.bridge.handlers[n]? = some (some h) →
    (listOf (payloads.filterMap Frame.payload?))[n]? = some h.message ∧ h.Sound
  /-- A handler that has replied is over, and has replied to its message. -/
  replied : ∀ (n : Nat) (r : Reply), (n, r) ∈ replies t → w.bridge.handlers[n]? = some none ∧
    ∃ m, (listOf (payloads.filterMap Frame.payload?))[n]? = some m ∧ m.Answered r
  nodup : ((replies t).map Prod.fst).Nodup
  /-- As long as messages are read, a handler that is over has replied. -/
  finished : w.bridge.phase = .serving → ∀ n : Nat, w.bridge.handlers[n]? = some none → ∃ r, (n, r) ∈ replies t
  /-- No handler goes on after the input has ended. -/
  alone : w.bridge.phase ≠ .serving → ∀ (n : Nat) (h : Handler), w.bridge.handlers[n]? ≠ some (some h)

variable {payloads : List (List UInt8)}

theorem heard_create : Heard [] [] (create root options checkouts) where
  read := ⟨[], Framer.holds_fresh, rfl⟩
  fits := by simp
  handled := rfl
  going n h hn := by simp [create, Bridge.opening] at hn
  replied n r hr := by cases hr
  nodup := List.nodup_nil
  finished _ n hn := by simp [create, Bridge.opening] at hn
  alone _ n h hn := by simp [create, Bridge.opening] at hn

/-- What is not about messages. -/
theorem Heard.of_eq (h : Heard payloads t w) (hframer : w'.bridge.framer = w.bridge.framer)
    (hinput : w'.bridge.input = w.bridge.input) (hhandlers : w'.bridge.handlers = w.bridge.handlers)
    (hphase : w'.bridge.phase = .serving ↔ w.bridge.phase = .serving) :
    Heard payloads (t ++ [.other]) w' := by
  constructor
  · simpa [hframer, hinput, TalkEvent.bytes] using h.read
  · exact h.fits
  · simpa [hhandlers] using h.handled
  · simpa [hhandlers] using h.going
  · simpa [hhandlers, TalkEvent.reply?] using h.replied
  · simpa [TalkEvent.reply?] using h.nodup
  · simpa [hphase, hhandlers, TalkEvent.reply?] using h.finished
  · simpa [hphase, hhandlers] using h.alone

theorem Heard.reply (h : Heard payloads t w) {strand : Nat} {news : HandlerNews} {handler : Handler}
    {r : Reply} {s : ServiceState} (hn : w.bridge.handlers[n]? = some (some handler))
    (hturn : handler.turn v w.now strand news w.bridge.state = .finished r s) :
    Heard payloads (t ++ [.replied n r]) { w with bridge := { w.bridge with
      state := s, handlers := w.bridge.handlers.set n none, outbox := w.bridge.outbox ++ [r] } } where
  read := by simpa [TalkEvent.bytes] using h.read
  fits := h.fits
  handled := by simpa using h.handled
  going k h' hk := by
    rcases (getElem?_set_eq_some hn).mp hk with ⟨-, heq⟩ | ⟨-, hk⟩
    · cases heq
    · exact h.going k h' hk
  replied k r' hr := by
    rw [getElem?_set_eq_some hn]
    rcases (List.mem_append.mp (TalkEvent.replies_concat _ ▸ hr)) with hr | hr
    · obtain ⟨hover, hm⟩ := h.replied k r' hr
      refine ⟨?_, hm⟩
      by_cases hkn : k = n
      · exact Or.inl ⟨hkn, rfl⟩
      · exact Or.inr ⟨hkn, hover⟩
    · obtain ⟨rfl, rfl⟩ := Prod.mk.inj (List.mem_singleton.mp hr)
      obtain ⟨hm, hsound⟩ := h.going k handler hn
      exact ⟨Or.inl ⟨rfl, rfl⟩, handler.message, hm, Handler.answered_of_finished hsound hturn⟩
  nodup := by
    rw [TalkEvent.replies_concat, List.map_append, TalkEvent.reply?, Option.toList_some,
      List.map_singleton, List.nodup_append_comm, List.singleton_append, List.nodup_cons]
    refine ⟨fun hmem ↦ ?_, h.nodup⟩
    obtain ⟨⟨k, r'⟩, hr, rfl⟩ := List.mem_map.mp hmem
    cases (h.replied _ _ hr).1.symm.trans hn
  finished hserving k hk := by
    rcases (getElem?_set_eq_some hn).mp hk with ⟨rfl, -⟩ | ⟨-, hk⟩
    · exact ⟨r, by simp [TalkEvent.reply?]⟩
    · obtain ⟨r', hr⟩ := h.finished hserving k hk
      exact ⟨r', by simp [hr]⟩
  alone hleft := absurd hn (h.alone hleft n handler)

/-- A handler that goes on. -/
theorem Heard.go (h : Heard payloads t w) {strand : Nat} {news : HandlerNews} {handler handler' : Handler}
    {s : ServiceState} (hn : w.bridge.handlers[n]? = some (some handler))
    (hturn : handler.turn v w.now strand news w.bridge.state = .moved handler' s) :
    Heard payloads (t ++ [.other]) { w with bridge := { w.bridge with
      state := s, handlers := w.bridge.handlers.set n (some handler') } } where
  read := by simpa [TalkEvent.bytes] using h.read
  fits := h.fits
  handled := by simpa using h.handled
  going k h' hk := by
    rcases (getElem?_set_eq_some hn).mp hk with ⟨rfl, heq⟩ | ⟨-, hk⟩
    · obtain rfl := Option.some.inj heq
      obtain ⟨hm, hsound⟩ := h.going k handler hn
      obtain ⟨hsound', hmessage⟩ := Handler.sound_of_moved hsound hturn
      exact ⟨hmessage ▸ hm, hsound'⟩
    · exact h.going k h' hk
  replied k r' hr := by
    rw [getElem?_set_eq_some hn]
    obtain ⟨hover, hm⟩ := h.replied k r' (by simpa [TalkEvent.reply?] using hr)
    refine ⟨Or.inr ⟨?_, hover⟩, hm⟩
    rintro rfl
    cases hover.symm.trans hn
  nodup := by simpa [TalkEvent.reply?] using h.nodup
  finished hserving k hk := by
    rcases (getElem?_set_eq_some hn).mp hk with ⟨-, heq⟩ | ⟨-, hk⟩
    · cases heq
    · simpa [TalkEvent.reply?] using h.finished hserving k hk
  alone hleft := absurd hn (h.alone hleft n handler)

/-- Bytes that are read. -/
theorem Heard.take (h : Heard payloads t w) {taken rest : List UInt8}
    (hinput : w.bridge.input = taken ++ rest) (hserving : w.bridge.phase = .serving) :
    ∃ more, Heard (payloads ++ more) (t ++ [.other]) { w with bridge := { w.bridge with
      input := rest
      framer := (w.bridge.framer.deliver taken).2
      handlers := w.bridge.handlers ++ Bridge.handlersOf (w.bridge.framer.deliver taken).1.values } } := by
  obtain ⟨held, hheld, hstream⟩ := h.read
  obtain ⟨more, held', hheld', hsplit, hfits, hvalues⟩ := hheld.deliver taken
  have hlist : listOf ((payloads ++ more).filterMap Frame.payload?) =
      listOf (payloads.filterMap Frame.payload?) ++ listOf (more.filterMap Frame.payload?) := by
    rw [List.filterMap_append, PageMessage.listOf_append]
  have hnew : Bridge.handlersOf (w.bridge.framer.deliver taken).1.values =
      (listOf (more.filterMap Frame.payload?)).map fun m ↦ some (.begin m) := by
    rw [Bridge.handlersOf_eq, hvalues]
    rfl
  have hkeep {k : Nat} {m : PageMessage} (hm : (listOf (payloads.filterMap Frame.payload?))[k]? = some m) :
      (listOf ((payloads ++ more).filterMap Frame.payload?))[k]? = some m := by
    rw [hlist, List.getElem?_append_left (List.getElem?_eq_some_iff.mp hm).1, hm]
  have hold {k : Nat} {x : Option Handler} (hk : w.bridge.handlers[k]? = some x) :
      (w.bridge.handlers ++ Bridge.handlersOf (w.bridge.framer.deliver taken).1.values)[k]? = some x := by
    rw [List.getElem?_append_left (List.getElem?_eq_some_iff.mp hk).1, hk]
  -- A handler is an old one, or that of a message that has just been read.
  have hcases {k : Nat} {x : Option Handler} (hk : (w.bridge.handlers ++
      Bridge.handlersOf (w.bridge.framer.deliver taken).1.values)[k]? = some x) :
      w.bridge.handlers[k]? = some x ∨ ∃ m, x = some (.begin m) ∧
        (listOf ((payloads ++ more).filterMap Frame.payload?))[k]? = some m := by
    rcases Nat.lt_or_ge k w.bridge.handlers.length with hlt | hge
    · exact Or.inl ((List.getElem?_append_left hlt).symm.trans hk)
    · rw [List.getElem?_append_right hge, hnew, List.getElem?_map] at hk
      obtain ⟨m, hm, rfl⟩ := Option.map_eq_some_iff.mp hk
      refine Or.inr ⟨m, rfl, ?_⟩
      rw [hlist, List.getElem?_append_right (h.handled ▸ hge), ← h.handled, hm]
  refine ⟨more, ⟨held', hheld', ?_⟩, ?_, ?_, fun k h' hk ↦ ?_, fun k r hr ↦ ?_, ?_, fun _ k hk ↦ ?_,
    fun hleft ↦ absurd hserving hleft⟩
  · have hall := congrArg (payloads.flatMap Frame.ofPayload ++ · ++ rest) hsplit
    simpa [TalkEvent.bytes, hstream, hinput] using hall
  · intro payload hp
    rcases List.mem_append.mp hp with hp | hp
    · exact h.fits payload hp
    · exact hfits payload hp
  · rw [List.length_append, h.handled, hnew, List.length_map, hlist, List.length_append]
  · rcases hcases hk with hk | ⟨m, heq, hm⟩
    · obtain ⟨hm, hsound⟩ := h.going k h' hk
      exact ⟨hkeep hm, hsound⟩
    · obtain rfl := Option.some.inj heq
      exact ⟨hm, Handler.sound_begin m⟩
  · obtain ⟨hover, m, hm, hanswered⟩ := h.replied k r (by simpa [TalkEvent.reply?] using hr)
    exact ⟨hold hover, m, hkeep hm, hanswered⟩
  · simpa [TalkEvent.reply?] using h.nodup
  · rcases hcases hk with hk | ⟨m, heq, -⟩
    · simpa [TalkEvent.reply?] using h.finished hserving k hk
    · cases heq

/-- Handlers that are given up. -/
theorem Heard.forsake (h : Heard payloads t w) {s : ServiceState} {phase : BridgePhase}
    (hleaving : Bridge.IsLeaving phase) : Heard payloads (t ++ [.other]) { w with bridge := { w.bridge with
      state := s, handlers := w.bridge.handlers.map fun _ ↦ none, phase := phase } } := by
  have hnone (k : Nat) (h' : Handler) :
      (w.bridge.handlers.map fun _ ↦ (none : Option Handler))[k]? ≠ some (some h') := by
    rw [List.getElem?_map]
    cases w.bridge.handlers[k]? <;> simp
  refine ⟨by simpa [TalkEvent.bytes] using h.read, h.fits, by simpa using h.handled,
    fun k h' hk ↦ absurd hk (hnone k h'), fun k r hr ↦ ?_, by simpa [TalkEvent.reply?] using h.nodup,
    fun hserving ↦ absurd hserving hleaving.1, fun _ ↦ hnone⟩
  obtain ⟨hover, hm⟩ := h.replied k r (by simpa [TalkEvent.reply?] using hr)
  exact ⟨by rw [List.getElem?_map, hover]; rfl, hm⟩

/-- What a step does to messages. -/
theorem Heard.step (h : Heard payloads t w) (htalk : w.Talk v e w') :
    ∃ more, Heard (payloads ++ more) (t ++ [e]) w' := by
  have hsame (h : Heard payloads (t ++ [e]) w') : ∃ more, Heard (payloads ++ more) (t ++ [e]) w' :=
    ⟨[], by rwa [List.append_nil]⟩
  cases htalk with
  | send bytes =>
    refine hsame ⟨?_, h.fits, h.handled, h.going, ?_, ?_, ?_, h.alone⟩
    · obtain ⟨held, hheld, hstream⟩ := h.read
      exact ⟨held, hheld, by simp [TalkEvent.bytes, hstream]⟩
    · simpa [TalkEvent.reply?] using h.replied
    · simpa [TalkEvent.reply?] using h.nodup
    · simpa [TalkEvent.reply?] using h.finished
  | reply hn hturn => exact hsame (h.reply hn hturn)
  | go hstep hinput houtbox =>
    cases hstep with
    | send bytes =>
      have hnil : bytes = [] := by
        have hlen := hinput.length_le
        simp only [List.length_append] at hlen
        exact List.length_eq_zero_iff.mp (by omega)
      exact hsame (h.of_eq rfl (by simp [hnil]) rfl Iff.rfl)
    | hangUp | inside | change | pass => exact hsame (h.of_eq rfl rfl rfl Iff.rfl)
    | read _ hread | giveUp _ hread =>
      obtain ⟨hserving, ⟨-, s, phase, hleaving, rfl⟩ | ⟨-, taken, rest, htaken, rfl⟩⟩ :=
        Bridge.readTurn_cases hread
      · exact hsame (h.forsake hleaving)
      · exact h.take htaken hserving
    | turn hturn =>
      obtain ⟨handler, hn, ⟨handler', s, hmoved, rfl⟩ | ⟨r, s, -, rfl⟩⟩ := Bridge.handlerTurn_cases hturn
      · exact hsame (h.go hn hmoved)
      · -- A handler that ends replies, so this is no step in which nobody does.
        have hlen := houtbox.length_le
        simp only [List.length_append, List.length_singleton] at hlen
        omega
    | close hclose =>
      obtain ⟨hleaving, s, phase, hleaving', rfl⟩ := Bridge.closeTurn_eq_moved hclose
      exact hsame (h.of_eq rfl rfl rfl ⟨fun h ↦ absurd h hleaving'.1, fun h ↦ absurd h hleaving.1⟩)
    | write hwrite =>
      obtain ⟨r, rest, -, rfl⟩ | ⟨-, hdraining, rfl⟩ := Bridge.writeTurn_cases hwrite
      · exact hsame (h.of_eq rfl rfl rfl Iff.rfl)
      · exact hsame (h.of_eq rfl rfl rfl (by simp [hdraining]))

theorem heard_of_run (h : Run (Talk v) (create root options checkouts) t w) :
    ∃ payloads, Heard payloads t w := by
  induction h with
  | nil => exact ⟨[], heard_create⟩
  | snoc _ htalk ih =>
    obtain ⟨payloads, hheard⟩ := ih
    obtain ⟨more, hheard'⟩ := hheard.step htalk
    exact ⟨_, hheard'⟩

/-! ### Replies -/

/-- The values that have a frame. -/
def framed (replies : List Reply) : List Json :=
  (replies.map Reply.toJson).filter fun v ↦ (Frame.encode v).isSome

theorem framed_append (l l' : List Reply) : framed (l ++ l') = framed l ++ framed l' := by
  simp [framed]

/-- How far replies have come: those that were written, and those that are in the outbox. -/
structure Posted (done : List Reply) (t : List TalkEvent) (w : BridgeWorld) : Prop where
  replies : (replies t).map Prod.snd = done ++ w.bridge.outbox
  written : w.bridge.written = framed done
  ended : w.bridge.phase = .ended → w.bridge.outbox = []

variable {done : List Reply}

theorem posted_create : Posted [] [] (create root options checkouts) :=
  ⟨rfl, rfl, fun _ ↦ rfl⟩

theorem Posted.of_eq (h : Posted done t w) (houtbox : w'.bridge.outbox = w.bridge.outbox)
    (hwritten : w'.bridge.written = w.bridge.written)
    (hphase : w'.bridge.phase = .ended → w.bridge.phase = .ended) : Posted done (t ++ [.other]) w' where
  replies := by simpa [houtbox, TalkEvent.reply?] using h.replies
  written := hwritten.trans h.written
  ended hended := houtbox.trans (h.ended (hphase hended))

/-- What a step does to replies. -/
theorem Posted.step (h : Posted done t w) (hheard : Heard payloads t w) (htalk : w.Talk v e w') :
    ∃ more, Posted (done ++ more) (t ++ [e]) w' := by
  have hsame (h : Posted done (t ++ [e]) w') : ∃ more, Posted (done ++ more) (t ++ [e]) w' :=
    ⟨[], by rwa [List.append_nil]⟩
  cases htalk with
  | send bytes => exact hsame ⟨by simpa [TalkEvent.reply?] using h.replies, h.written, h.ended⟩
  | @reply n _ _ handler r _ hn =>
    refine hsame ⟨by simp [TalkEvent.reply?, h.replies], h.written, fun hended ↦ ?_⟩
    exact absurd hn (hheard.alone (by rw [show w.bridge.phase = _ from hended]; simp) n handler)
  | go hstep hinput houtbox =>
    cases hstep with
    | send | hangUp | inside | change | pass => exact hsame (h.of_eq rfl rfl id)
    | read _ hread | giveUp _ hread =>
      obtain ⟨-, ⟨-, s, phase, hleaving, rfl⟩ | ⟨-, taken, rest, -, rfl⟩⟩ := Bridge.readTurn_cases hread
      · exact hsame (h.of_eq rfl rfl fun hended ↦ absurd hended hleaving.2)
      · exact hsame (h.of_eq rfl rfl id)
    | turn hturn =>
      obtain ⟨handler, hn, ⟨handler', s, -, rfl⟩ | ⟨r, s, -, rfl⟩⟩ := Bridge.handlerTurn_cases hturn
      · exact hsame (h.of_eq rfl rfl id)
      · have hlen := houtbox.length_le
        simp only [List.length_append, List.length_singleton] at hlen
        omega
    | close hclose =>
      obtain ⟨-, s, phase, hleaving, rfl⟩ := Bridge.closeTurn_eq_moved hclose
      exact hsame (h.of_eq rfl rfl fun hended ↦ absurd hended hleaving.2)
    | write hwrite =>
      obtain ⟨r, rest, hfirst, rfl⟩ | ⟨hempty, -, rfl⟩ := Bridge.writeTurn_cases hwrite
      · refine ⟨[r], by simp [TalkEvent.reply?, h.replies, hfirst], ?_, fun hended ↦ ?_⟩
        · rw [framed_append, ← h.written]
          cases hencode : (Frame.encode r.toJson).isSome <;> simp [framed, hencode]
        · cases hfirst.symm.trans (h.ended hended)
      · exact hsame ⟨by simpa [TalkEvent.reply?] using h.replies, h.written, fun _ ↦ hempty⟩

theorem posted_of_run (h : Run (Talk v) (create root options checkouts) t w) :
    ∃ done, Posted done t w := by
  induction h with
  | nil => exact ⟨[], posted_create⟩
  | snoc hrun htalk ih =>
    obtain ⟨done, hposted⟩ := ih
    obtain ⟨payloads, hheard⟩ := heard_of_run hrun
    obtain ⟨more, hposted'⟩ := hposted.step hheard htalk
    exact ⟨_, hposted'⟩

/-! ### Conversations -/

/-- The messages that were read are the first of those that were sent. -/
theorem Heard.getElem?_listOf (h : Heard payloads t w) {m : PageMessage}
    (hm : (listOf (payloads.filterMap Frame.payload?))[n]? = some m) :
    (listOf (Frame.decodeAll (stream t)).1)[n]? = some m := by
  obtain ⟨held, hheld, hstream⟩ := h.read
  obtain ⟨more, left, hleft, hsplit, hfits, -⟩ := hheld.deliver w.bridge.input
  have hreads : Frame.Reads (stream t) (payloads ++ more) left := by
    refine ⟨by rw [hstream, List.append_assoc, hsplit, List.flatMap_append, List.append_assoc], ?_,
      hleft.incomplete⟩
    intro payload hp
    rcases List.mem_append.mp hp with hp | hp
    · exact h.fits payload hp
    · exact hfits payload hp
  rw [Frame.decodeAll_eq_of_reads hreads, List.filterMap_append, PageMessage.listOf_append,
    List.getElem?_append_left (List.getElem?_eq_some_iff.mp hm).1]
  exact hm

/-- What was written is made of the frames of the replies that were written. -/
theorem Posted.output_eq (h : Posted done t w)
    (hfits : ∀ r ∈ done, (Frame.body r.toJson).length < wordValues 32) :
    w.bridge.output = done.flatMap fun r ↦ Frame.ofPayload (Frame.body r.toJson) := by
  have hencode (r : Reply) (hr : r ∈ done) :
      Frame.encode r.toJson = some (Frame.ofPayload (Frame.body r.toJson)) := if_pos (hfits r hr)
  have hall : framed done = done.map Reply.toJson := by
    refine List.filter_eq_self.mpr fun v hv ↦ ?_
    obtain ⟨r, hr, rfl⟩ := List.mem_map.mp hv
    rw [hencode r hr]
    rfl
  rw [Bridge.output, h.written, hall, List.flatMap_map]
  refine List.flatMap_congr fun r hr ↦ ?_
  rw [hencode r hr]
  rfl

/-- Whatever the browser sends, in whatever pieces, and in whatever order handlers go on and end: no handler
replies twice, and each reply is one to the message of its handler, which is one of the messages that can be
read. It has the tab and the arguments of the message, unless these are missing or `null`, and its name, or
that of the symbols of a document when this was opened; a request about a place that could be read gets the
place back as it was written. What is written is made of the frames of the first of these replies, in the
order in which the handlers ended, and in the end it is all of them; a handler that was over before the input
ended has replied. -/
theorem conversation_of_run (h : Run (Talk v) (create root options checkouts) t w)
    (hfits : ∀ n r, (n, r) ∈ replies t → (Frame.body r.toJson).length < wordValues 32) :
    ((replies t).map Prod.fst).Nodup ∧
    (∀ n r, (n, r) ∈ replies t →
      ∃ m, (listOf (Frame.decodeAll (stream t)).1)[n]? = some m ∧ m.Repeated r.toJson) ∧
    (∀ value m, PageMessage.ofJson value = .ok m →
      PageMessage.part? value "messageName" 0 = some (.string m.name) ∧
      m.tab = (PageMessage.part? value "tabId" 2).filter (!·.isNull) ∧
      m.repeatedInfo = (PageMessage.part? value "userInfo" 1).filter (!·.isNull)) ∧
    (∃ done, done <+: (replies t).map Prod.snd ∧
      w.bridge.output = done.flatMap (fun r ↦ Frame.ofPayload (Frame.body r.toJson)) ∧
      (w.bridge.isEnded = true → done = (replies t).map Prod.snd)) ∧
    ∀ before after u n, t = before ++ after → Run (Talk v) (create root options checkouts) before u →
      u.bridge.phase = .serving → u.bridge.handlers[n]? = some none → ∃ r, (n, r) ∈ replies t := by
  obtain ⟨payloads, hheard⟩ := heard_of_run h
  obtain ⟨done, hposted⟩ := posted_of_run h
  refine ⟨hheard.nodup, fun n r hr ↦ ?_, fun value m ↦ PageMessage.parts_of_ofJson,
    ⟨done, ⟨w.bridge.outbox, hposted.replies.symm⟩, hposted.output_eq fun r hr ↦ ?_, fun hended ↦ ?_⟩, ?_⟩
  · obtain ⟨-, m, hm, hanswered⟩ := hheard.replied n r hr
    exact ⟨m, hheard.getElem?_listOf hm, hanswered.repeated⟩
  · have hmem : r ∈ (replies t).map Prod.snd := hposted.replies ▸ List.mem_append_left _ hr
    obtain ⟨x, hx, rfl⟩ := List.mem_map.mp hmem
    exact hfits x.1 x.2 hx
  · have hphase : w.bridge.phase = .ended := by
      simp only [Bridge.isEnded] at hended
      split at hended
      · assumption
      · cases hended
    rw [hposted.replies, hposted.ended hphase, List.append_nil]
  · rintro before after u n rfl hu hserving hover
    obtain ⟨payloads', hheard'⟩ := heard_of_run hu
    obtain ⟨r, hr⟩ := hheard'.finished hserving n hover
    refine ⟨r, ?_⟩
    rw [replies, List.filterMap_append]
    exact List.mem_append_left _ hr

/-! ### Schedules -/

/-- What comes of a turn of the browser, the reader, the writer or a handler that will be over. -/
def talk (v : Service) (w : BridgeWorld) : BridgeMove → Option (TalkEvent × BridgeWorld)
  | .send bytes =>
    if w.bridge.inputEnded then none
    else some (.sent bytes, { w with bridge := { w.bridge with input := w.bridge.input ++ bytes } })
  | .hangUp => some (.other, { w with bridge := { w.bridge with inputEnded := true } })
  | .read => w.bridge.readTurn.map fun b ↦ (.other, { w with bridge := b })
  | .write => w.bridge.writeTurn.map fun b ↦ (.other, { w with bridge := b })
  | .go n =>
    match w.bridge.handlers[n]? with
    | some (some h) =>
      match h.turn v w.now 0 .nothing w.bridge.state with
      | .finished r s => some (.replied n r, { w with bridge := { w.bridge with
          state := s, handlers := w.bridge.handlers.set n none, outbox := w.bridge.outbox ++ [r] } })
      | _ => none
    | _ => none
  | _ => none

/-- What comes of a turn is a step. -/
theorem talk_of_talk {m : BridgeMove} (h : w.talk v m = some (e, w')) : w.Talk v e w' := by
  cases m with
  | send bytes =>
    simp only [talk] at h
    split at h
    · cases h
    · rename_i hopen
      cases h
      exact .send bytes (by simpa using hopen)
  | hangUp =>
    cases h
    exact .go .hangUp (List.suffix_refl _) (List.suffix_refl _)
  | read =>
    obtain ⟨b, hread, heq⟩ := Option.map_eq_some_iff.mp h
    obtain ⟨rfl, rfl⟩ := Prod.mk.inj heq
    exact talk_of_readTurn hread
  | write =>
    obtain ⟨b, hwrite, heq⟩ := Option.map_eq_some_iff.mp h
    obtain ⟨rfl, rfl⟩ := Prod.mk.inj heq
    exact talk_of_writeTurn hwrite
  | go n =>
    simp only [talk] at h
    split at h
    · rename_i hn
      split at h
      · rename_i hturn
        cases h
        exact .reply hn hturn
      · cases h
    · cases h
  | close | inside => cases h

/-- The frame of a question about a token of a file, from a tab. -/
def question (tab : Nat) : List UInt8 :=
  (Frame.encode <| .ofFields [("messageName", .string "hover"), ("tabId", .nat tab),
    ("userInfo", .ofFields [("resource", .string "h"), ("slug", .string "a/b"),
      ("filepath", .string "m.c"), ("line", .nat 3), ("character", .nat 1),
      ("text", .string " .f")])]).getD []

/-- Two tabs ask, with something between that is no message; the second one is answered first. -/
def questionMoves : List BridgeMove :=
  [.send (question 7), .send [4, 0, 0, 0, 110, 117, 108, 108], .send (question 8), .read, .go 1, .go 0,
    .hangUp, .read, .write, .write, .write]

/-- Both tabs get their replies, in the order in which their handlers ended. -/
theorem answered_questions : ∃ t w,
    Run (Talk ⟨⟨⟨"/c"⟩, "", [], none⟩, ⟨⟨"/s"⟩, .usual⟩, 0⟩) (create ⟨"/c"⟩ default ⟨⟨[]⟩, .none, .empty⟩) t
      w ∧ (∀ n r, (n, r) ∈ replies t → (Frame.body r.toJson).length < wordValues 32) ∧
      (replies t).map Prod.fst = [1, 0] ∧
      w.bridge.output = (replies t).flatMap (fun x ↦ Frame.ofPayload (Frame.body x.2.toJson)) ∧
      ∀ n r, (n, r) ∈ replies t →
        ∃ m, (listOf (Frame.decodeAll (stream t)).1)[n]? = some m ∧ m.Repeated r.toJson := by
  obtain ⟨t, w, hrun, hcheck⟩ := exists_run_of_play
    (talk ⟨⟨⟨"/c"⟩, "", [], none⟩, ⟨⟨"/s"⟩, .usual⟩, 0⟩) (fun _ _ _ _ ↦ talk_of_talk)
    (create ⟨"/c"⟩ default ⟨⟨[]⟩, .none, .empty⟩) questionMoves
    (fun t w ↦ w.bridge.isEnded && decide ((replies t).map Prod.fst = [1, 0]) &&
      (replies t).all fun x ↦ decide ((Frame.body x.2.toJson).length < wordValues 32)) (by decide +kernel)
  simp only [Bool.and_eq_true, decide_eq_true_eq] at hcheck
  obtain ⟨⟨hended, hnumbers⟩, hsmall⟩ := hcheck
  have hfits : ∀ n r, (n, r) ∈ replies t → (Frame.body r.toJson).length < wordValues 32 := fun n r hr ↦
    of_decide_eq_true (List.all_eq_true.mp hsmall (n, r) hr)
  obtain ⟨-, hreplies, -, ⟨done, -, houtput, hall⟩, -⟩ := conversation_of_run hrun hfits
  refine ⟨t, w, hrun, hfits, hnumbers, ?_, hreplies⟩
  rw [houtput, hall hended, List.flatMap_map]

end BridgeWorld

end CodeNav
