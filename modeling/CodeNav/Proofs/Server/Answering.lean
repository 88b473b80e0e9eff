import CodeNav.Proofs.Server.Faithful
import CodeNav.Proofs.Server.Letters
import CodeNav.Proofs.Server.Listening
import CodeNav.Proofs.Server.Replies

/-!
# Answers to a server

A server asks the client things while the client asks the server. Both use one stream in each direction, and
the same numbers. The reader of the client queues up with each answer behind those who wait to write, and reads
no more until it is written. Nothing that asks is ever taken for an answer, and everything that asks is
answered once.

## Main definitions

* `Exchange.drafts`: the messages that callers wait to write
* `Exchange.Posts`: what a step does to the post
* `Listening.Serving`: a step that loses no answer
* `Listening.Replied`: what a server may rely on

## Main statements

* `Exchange.Step.posts`: every step is one of these
* `Listening.exists_run_idle`: the reader can always take and answer everything
* `Listening.replied_of_run`: a server may rely on it in every run
-/

namespace CodeNav

variable {root : Path} {limit : Option Nat} {c : Client} {t : List RequestEvent} {e : RequestEvent}
  {uri name : String}

namespace Exchange

variable {w w' : Exchange}

/-- The messages that callers wait to write. -/
def drafts (w : Exchange) : List Note :=
  w.requests.filterMap (·.bind ServerCall.draft?) ++ w.notes.filterMap id

/-- The answers among the messages that were written: they have no method. -/
def answersOf (written : List Json) : List Json :=
  written.filter fun m ↦ (Client.methodOf? m).isNone

/-- What a step does to the post: a caller goes on with its message or gives it up, the reader goes on, or the
server does. -/
inductive Posts (w : Exchange) : RequestEvent → Exchange → Prop
  | caller {e : RequestEvent} {w' : Exchange} {d d' : Option Note} {rest : List Note}
      (he : e.heard? = none) (hfolder : w'.client.folder = w.client.folder)
      (hdraft : w'.client.draft? = w.client.draft?) (hclosed : w'.client.closed = w.client.closed)
      (hbefore : w.drafts.Perm (d.toList ++ rest)) (hafter : w'.drafts.Perm (d'.toList ++ rest))
      (hnamed : ∀ n ∈ d', Client.methodOf? n.message ≠ none)
      (hmoves : w.client.post.Moves d d' w'.client.post) : Posts w e w'
  | leave {e : RequestEvent} {w' : Exchange} {n : Note} {rest : List Note}
      (he : e.heard? = none) (hfolder : w'.client.folder = w.client.folder)
      (hdraft : w'.client.draft? = w.client.draft?) (hclosed : w'.client.closed = w.client.closed)
      (hbefore : w.drafts.Perm (n :: rest)) (hafter : w'.drafts.Perm rest)
      (hpost : w'.client.post = w.client.post.leave n.ticket) : Posts w e w'
  | reader {w' : Exchange} (hturn : w.client.readerTurn = some w'.client) (hdrafts : w'.drafts = w.drafts) :
      Posts w (.ofReading w.client.reading) w'
  | server {w' : Exchange} {bytes : List UInt8} {accepts ended : Bool} (hdrafts : w'.drafts = w.drafts)
      (hclient : w'.client = { w.client with wire := w.client.wire.serve bytes accepts ended }) :
      Posts w .other w'

/-- A request goes on. -/
theorem perm_drafts_set {n : Nat} {r : Option ServerCall} (hn : w.requests[n]? = some r) :
    ∃ rest, w.drafts.Perm ((r.bind ServerCall.draft?).toList ++ rest) ∧
      ∀ r' c', (drafts { w with client := c', requests := w.requests.set n r' }).Perm
        ((r'.bind ServerCall.draft?).toList ++ rest) := by
  obtain ⟨rest, hbefore, hafter⟩ := perm_filterMap_set (fun r ↦ r.bind ServerCall.draft?) hn
  refine ⟨rest ++ w.notes.filterMap id, ?_, fun r' c' ↦ ?_⟩
  · rw [← List.append_assoc]
    exact hbefore.append_right _
  · rw [← List.append_assoc]
    exact (hafter r').append_right _

/-- A message that has no answer goes on. -/
theorem perm_drafts_set_notes {i : Nat} {n : Note} (hi : w.notes[i]? = some (some n)) :
    ∃ rest, w.drafts.Perm (n :: rest) ∧
      ∀ c', (drafts { w with client := c', notes := w.notes.set i none }).Perm rest := by
  obtain ⟨rest, hbefore, hafter⟩ := perm_filterMap_set id hi
  refine ⟨w.requests.filterMap (·.bind ServerCall.draft?) ++ rest, ?_, fun c' ↦ (hafter none).append_left _⟩
  exact (hbefore.append_left _).trans List.perm_middle

theorem methodOf?_requestMessage (id : Nat) (method : String) (params : Json) :
    Client.methodOf? (Client.requestMessage id method params) ≠ none := by
  simp [Client.methodOf?, Client.requestMessage, Json.ofFields, Json.field?, Json.lookup_insertField,
    Json.string?]

theorem methodOf?_noteMessage (method : String) (params : Json) :
    Client.methodOf? (Client.noteMessage method params) ≠ none := by
  simp [Client.methodOf?, Client.noteMessage, Json.ofFields, Json.field?, Json.lookup_insertField,
    Json.string?]

theorem Step.posts (h : Step w e w') : Posts w e w' := by
  cases h with
  | @ask method params limit r c h =>
    obtain ⟨hmoves, hdraft, hmessage⟩ := ServerCall.moves_start h
    refine @Posts.caller _ _ _ none _ w.drafts rfl (ServerCall.folder_start h) hdraft
      (ServerCall.sameStream_start h).closed (.refl _) ?_ (fun n hn ↦ ?_) hmoves
    · have hnew : [some r].filterMap (·.bind ServerCall.draft?) = r.draft?.toList := by
        cases hd : r.draft? <;> simp [hd]
      simp only [drafts, List.filterMap_append, hnew]
      rw [List.append_assoc]
      exact List.perm_append_comm_assoc ..
    · rw [hmessage n hn]
      exact methodOf?_requestMessage _ _ _
  | refuse h =>
    exact @Posts.caller _ _ _ none none w.drafts rfl rfl rfl rfl (.refl _) (.refl _) (by simp) (.stay _)
  | @write n r r' c hn h =>
    obtain ⟨rest, hbefore, hafter⟩ := perm_drafts_set hn
    obtain ⟨hmoves, hnone, hdraft⟩ := ServerCall.moves_moved h
    have hafter := hafter (some r') c
    rw [Option.bind_some, hnone] at hafter
    exact .caller rfl (ServerCall.folder_moved h) hdraft (ServerCall.sameStream_moved h).closed hbefore
      hafter (by simp) hmoves
  | finish hn h =>
    obtain ⟨rest, hbefore, hafter⟩ := perm_drafts_set hn
    obtain ⟨hmoves, hdraft⟩ := ServerCall.moves_finished h
    exact @Posts.caller _ _ _ _ none rest rfl (ServerCall.folder_finished h) hdraft
      (ServerCall.sameStream_finished h).closed hbefore (hafter none _) (by simp) hmoves
  | @drop n r hn =>
    obtain ⟨rest, hbefore, hafter⟩ := perm_drafts_set hn
    obtain ⟨hpost, hdraft⟩ := r.post_drop w.client
    have hfolder := r.folder_drop w.client
    have hclosed := (r.sameStream_drop w.client).closed
    have hafter := hafter none (r.drop w.client)
    simp only [Option.bind_some] at hbefore
    cases hd : r.draft? with
    | none =>
      simp only [hd] at hpost hbefore
      refine @Posts.caller _ _ _ none none rest rfl hfolder hdraft hclosed hbefore hafter (by simp) ?_
      exact hpost ▸ .stay none
    | some n =>
      simp only [hd] at hpost hbefore
      exact .leave rfl hfolder hdraft hclosed hbefore hafter hpost
  | note h =>
    obtain ⟨hmoves, hmessage⟩ := Note.moves_start h
    refine @Posts.caller _ _ _ none _ w.drafts rfl (Note.folder_start h) (Note.draft?_start h)
      (Note.sameStream_start h).closed (.refl _) ?_ (fun n hn ↦ ?_) hmoves
    · simp only [drafts, List.filterMap_append]
      rw [← List.append_assoc]
      exact List.perm_append_comm
    · obtain rfl := Option.mem_some.mp hn
      rw [hmessage]
      exact methodOf?_noteMessage _ _
  | noteTurn hi h =>
    obtain ⟨rest, hbefore, hafter⟩ := perm_drafts_set_notes hi
    exact @Posts.caller _ _ _ (some _) none rest rfl (Note.folder_turn h) (Note.draft?_turn h)
      (Note.sameStream_turn h).closed hbefore (hafter _) (by simp) (Note.moves_turn h)
  | @noteDrop i n hi =>
    obtain ⟨rest, hbefore, hafter⟩ := perm_drafts_set_notes hi
    exact .leave rfl rfl rfl rfl hbefore (hafter _) rfl
  | read h he =>
    subst he
    exact .reader h rfl
  | serve bytes accepts ended => exact .server rfl rfl
  | pass d =>
    exact @Posts.caller _ _ _ none none w.drafts rfl rfl rfl rfl (.refl _) (.refl _) (by simp) (.stay _)

/-! ### What is owed -/

/-- What is known of answers, after a history of events: those that were written, and the one that waits, are
the answers to what was taken. All who wait are in the queue. -/
structure Tended (uri name : String) (t : List RequestEvent) (w : Exchange) : Prop where
  folder : w.client.folder = (uri, name)
  lined : ∃ waiting, w.client.post.Lined waiting (w.client.draft?.toList ++ w.drafts)
  named : ∀ n ∈ w.drafts, Client.methodOf? n.message ≠ none
  opened : w.client.draft? ≠ none → w.client.closed = false
  replies : Client.Replies uri name (Listening.heard t)
    (answersOf w.client.wire.written ++ w.client.owed)

/-- The reader is done with an answer only when the server takes it. -/
def Keeps (w w' : Exchange) : Prop :=
  w.client.answering ≠ none → w'.client.answering = none → w.client.wire.accepts = true

theorem answersOf_append (written more : List Json) :
    answersOf (written ++ more) = answersOf written ++ answersOf more :=
  List.filter_append ..

theorem answersOf_of_named {m : Json} (h : Client.methodOf? m ≠ none) : answersOf [m] = [] := by
  simpa [answersOf, Option.isNone_iff_eq_none] using h

/-- A caller that goes on writes no answer. -/
theorem answersOf_of_moves {p p' : Post} {d d' : Option Note} (h : p.Moves d d' p')
    (hnamed : ∀ n ∈ d, Client.methodOf? n.message ≠ none) : answersOf p'.written = answersOf p.written := by
  rcases h.written with heq | ⟨n, rfl, heq⟩
  · rw [heq]
  · rw [heq, answersOf_append, answersOf_of_named (hnamed n rfl), List.append_nil]

theorem draft?_eq_none_iff {c : Client} : c.draft? = none ↔ c.answering = none := by
  simp [Client.draft?]

/-- The reader has taken a message, and owes its answer. -/
theorem Tended.take {m : Json} (h : Tended uri name t w) (hturn : w.client.readerTurn = some w'.client)
    (hm : w.client.reading = .message m) : Client.Replies uri name (Listening.heard t ++ [m])
      (answersOf w'.client.wire.written ++ w'.client.owed) := by
  have hreplies := h.replies
  have hfolder := Prod.mk.inj h.folder
  have hmoves := (Client.moves_readerTurn hturn).1
  have hnew := Client.replies_readerTurn hturn hm
  rw [hfolder.1, hfolder.2] at hnew
  have hnone := Client.draft?_of_message hm
  rw [hnone] at hmoves
  have hwritten : answersOf w'.client.wire.written = answersOf w.client.wire.written :=
    answersOf_of_moves hmoves (by simp)
  rw [Client.owed, hnone] at hreplies
  rw [hwritten]
  simpa using hreplies.append hnew

/-- The reader is done with its answer, and so it has written it. -/
theorem Tended.write {d : Note} (h : Tended uri name t w) (hturn : w.client.readerTurn = some w'.client)
    (hkeeps : w.Keeps w') (hd : w.client.draft? = some d) (hnone : w'.client.draft? = none) :
    answersOf w'.client.wire.written = answersOf w.client.wire.written ++ [d.message] := by
  have hmoves := (Client.moves_readerTurn hturn).1
  have haccepts := hkeeps (by simp [← draft?_eq_none_iff, hd]) (draft?_eq_none_iff.mp hnone)
  have hwritten : w'.client.wire.written = w.client.wire.written ++ [d.message] := by
    rw [hd, hnone] at hmoves
    generalize hpost : w'.client.post = p at hmoves
    cases hmoves with
    | write => exact congrArg Post.written hpost
    | fail _ hrefuses => exact absurd haccepts (by simpa [Client.post] using hrefuses)
  have howed : Client.methodOf? d.message = none :=
    h.replies.methodOf? (by simp [Client.owed, hd])
  have hanswer : answersOf [d.message] = [d.message] := by simp [answersOf, howed]
  rw [hwritten, answersOf_append, hanswer]

/-- What the reader writes is its answer. -/
theorem Tended.reader (h : Tended uri name t w) (hturn : w.client.readerTurn = some w'.client)
    (hkeeps : w.Keeps w') : Client.Replies uri name
      (Listening.heard (t ++ [.ofReading w.client.reading]))
      (answersOf w'.client.wire.written ++ w'.client.owed) := by
  rw [Listening.heard_concat]
  by_cases hm : ∃ m, w.client.reading = .message m
  · obtain ⟨m, hm⟩ := hm
    rw [hm]
    exact h.take hturn hm
  · have hheard : (RequestEvent.ofReading w.client.reading).heard? = none := by
      cases hr : w.client.reading with
      | message m => exact absurd ⟨m, hr⟩ hm
      | _ => rfl
    have hreplies := h.replies
    have hnone := Client.draft?_readerTurn hturn fun m hr ↦ hm ⟨m, hr⟩
    rw [hheard, Option.toList_none, List.append_nil, Client.owed, hnone]
    cases hd : w.client.draft? with
    | none =>
      have hmoves := (Client.moves_readerTurn hturn).1
      rw [hd, hnone] at hmoves
      have hwritten : answersOf w'.client.wire.written = answersOf w.client.wire.written :=
        answersOf_of_moves hmoves (by simp)
      rw [Client.owed, hd] at hreplies
      rwa [hwritten]
    | some d =>
      rw [Client.owed, hd] at hreplies
      rw [h.write hturn hkeeps hd hnone]
      simpa using hreplies

theorem Tended.step (h : Tended uri name t w) (hstep : Step w e w') (hkeeps : w.Keeps w') :
    Tended uri name (t ++ [e]) w' := by
  obtain ⟨waiting, hwaiting⟩ := h.lined
  cases hstep.posts with
  | caller he hfolder hdraft hclosed hbefore hafter hnamed hmoves =>
    rename_i d d' rest
    have hd : ∀ n ∈ d, Client.methodOf? n.message ≠ none := fun n hn ↦
      h.named n (hbefore.mem_iff.mpr (by simp [Option.mem_def.mp hn]))
    have hlined : w.client.post.Lined waiting (d.toList ++ (w.client.draft?.toList ++ rest)) :=
      hwaiting.of_perm ((hbefore.append_left _).trans (List.perm_append_comm_assoc ..))
    obtain ⟨waiting', hwaiting'⟩ := hlined.shift hmoves
    refine ⟨hfolder.trans h.folder, ⟨waiting', hwaiting'.of_perm ?_⟩, fun n hn ↦ ?_, ?_, ?_⟩
    · rw [hdraft]
      exact (List.perm_append_comm_assoc ..).trans (hafter.symm.append_left _)
    · rcases List.mem_append.mp (hafter.mem_iff.mp hn) with hn | hn
      · exact hnamed n (by simpa using hn)
      · exact h.named n (hbefore.mem_iff.mpr (by simp [hn]))
    · rw [hdraft, hclosed]
      exact h.opened
    · have hwritten : answersOf w'.client.wire.written = answersOf w.client.wire.written :=
        answersOf_of_moves hmoves hd
      rw [Listening.heard_concat, he, Client.owed, hdraft, hwritten]
      simpa [Client.owed] using h.replies
  | leave he hfolder hdraft hclosed hbefore hafter hpost =>
    rename_i n rest
    have hlined : w.client.post.Lined waiting (n :: (w.client.draft?.toList ++ rest)) :=
      hwaiting.of_perm ((hbefore.append_left _).trans List.perm_middle)
    obtain ⟨waiting', hwaiting'⟩ := hlined.depart
    refine ⟨hfolder.trans h.folder, ⟨waiting', ?_⟩, fun m hm ↦ ?_, ?_, ?_⟩
    · rw [hpost, hdraft]
      exact hwaiting'.of_perm (hafter.symm.append_left _)
    · exact h.named m (hbefore.mem_iff.mpr (List.mem_cons_of_mem _ (hafter.mem_iff.mp hm)))
    · rw [hdraft, hclosed]
      exact h.opened
    · have hwritten : w'.client.wire.written = w.client.wire.written := congrArg Post.written hpost
      rw [Listening.heard_concat, he, Client.owed, hdraft, hwritten]
      simpa [Client.owed] using h.replies
  | reader hturn hdrafts =>
    obtain ⟨waiting', hwaiting'⟩ := hwaiting.shift (Client.moves_readerTurn hturn).1
    refine ⟨(Client.folder_readerTurn hturn).trans h.folder, ⟨waiting', ?_⟩, ?_,
      Client.closed_readerTurn hturn, h.reader hturn hkeeps⟩
    · rwa [hdrafts]
    · rw [hdrafts]
      exact h.named
  | server hdrafts hclient =>
    rename_i bytes accepts ended
    refine ⟨?_, ⟨waiting, ?_⟩, ?_, ?_, ?_⟩
    · rw [hclient]
      exact h.folder
    · rw [hclient, hdrafts]
      exact ⟨hwaiting.queue, hwaiting.wellFormed, hwaiting.perm⟩
    · rw [hdrafts]
      exact h.named
    · rw [hclient]
      exact h.opened
    · have hnone : RequestEvent.other.heard? = none := rfl
      rw [Listening.heard_concat, hclient, hnone, Option.toList_none, List.append_nil]
      exact h.replies

/-! ### An answer can be written -/

/-- Whoever holds the writer can write, if the server takes messages. -/
theorem exists_write {ticket : Nat} (hholder : c.writer.isHolder ticket = true)
    (haccepts : c.wire.accepts = true) (message : Json) :
    ∃ c', c.write? ticket message = some (.ok (), c') ∧ c'.wire.incoming = c.wire.incoming ∧
      c'.wire.accepts = true ∧ c'.writer.queue.length < c.writer.queue.length := by
  have hwrite : c.wire.write message = some { c.wire with written := c.wire.written ++ [message] } := by
    simp [Wire.write, haccepts]
  have hhead : c.writer.queue.head? = some ticket := by simpa [FairLock.isHolder] using hholder
  have hmem := List.mem_of_mem_head? hhead
  refine ⟨{ c with wire := { c.wire with written := c.wire.written ++ [message] } }.unqueue ticket, ?_, rfl,
    haccepts, ?_⟩
  · simp only [Client.write?, hholder, if_true, hwrite]
  change (c.writer.queue.erase ticket).length < c.writer.queue.length
  rw [List.length_erase_of_mem hmem]
  exact Nat.sub_lt (List.length_pos_of_mem hmem) Nat.one_pos

/-- As long as the reader owes an answer, whoever holds the writer can write, and leaves the queue. -/
theorem Tended.exists_step (h : Tended uri name t w) (haccepts : w.client.wire.accepts = true)
    (howed : w.client.answering ≠ none) : ∃ e w', w.Step e w' ∧
      w'.client.wire.incoming = w.client.wire.incoming ∧ w'.client.wire.accepts = true ∧
      w'.client.writer.queue.length < w.client.writer.queue.length := by
  obtain ⟨waiting, hwaiting⟩ := h.lined
  obtain ⟨d, hd⟩ := Option.ne_none_iff_exists'.mp (mt draft?_eq_none_iff.mp howed)
  have hmem : d ∈ waiting := hwaiting.perm.mem_iff.mpr (by simp [hd])
  obtain ⟨n, later, rfl⟩ := List.exists_cons_of_ne_nil (List.ne_nil_of_mem hmem)
  have hholder : w.client.writer.isHolder n.ticket = true := by
    have hqueue : n.ticket :: later.map Note.ticket = w.client.writer.queue := hwaiting.queue
    simp [FairLock.isHolder, ← hqueue]
  obtain ⟨c', hwrite, hincoming, haccepts', hqueue⟩ := exists_write hholder haccepts n.message
  have hn : n ∈ w.client.draft?.toList ++ w.drafts := hwaiting.perm.mem_iff.mp List.mem_cons_self
  rw [drafts, List.mem_append, List.mem_append] at hn
  rcases hn with hn | hn | hn
  · -- The reader is the first of those who wait.
    obtain ⟨a, hanswering, rfl⟩ := Option.map_eq_some_iff.mp (Option.mem_toList.mp hn)
    have hopen := h.opened (by simp [hd])
    refine ⟨_, { w with client := { c' with answering := none } }, .read ?_ rfl, hincoming, haccepts', hqueue⟩
    simp only [Client.readerTurn, hopen, hanswering, hwrite, Bool.false_eq_true, if_false, Option.map_some]
  · obtain ⟨r, hr, hdraft⟩ := List.mem_filterMap.mp hn
    obtain ⟨call, rfl, hdraft⟩ := Option.bind_eq_some_iff.mp hdraft
    obtain ⟨i, hi⟩ := List.mem_iff_getElem?.mp hr
    cases call with
    | awaiting => cases hdraft
    | writing id ticket method limit message =>
      obtain rfl := Option.some.inj hdraft
      have hturn : (ServerCall.writing id ticket method limit message).turn w.now w.client =
          .moved (.awaiting id method limit (limit.map (w.now + ·))) c' := by
        simp only [ServerCall.turn, hwrite]
      exact ⟨_, _, .write hi hturn, hincoming, haccepts', hqueue⟩
  · obtain ⟨_, hnote, rfl⟩ := List.mem_filterMap.mp hn
    obtain ⟨i, hi⟩ := List.mem_iff_getElem?.mp hnote
    have hturn : n.turn w.client = .finished (.ok ()) c' := by simp only [Note.turn, hwrite]
    exact ⟨_, _, .noteTurn hi hturn, hincoming, haccepts', hqueue⟩

end Exchange

namespace Listening

variable {w w' : Listening}

/-- A step in which no answer is lost: when the reader is done with one, the server takes messages. -/
def Serving (w : Listening) (e : RequestEvent) (w' : Listening) : Prop :=
  w.Step e w' ∧ w.exchange.Keeps w'.exchange

/-- The reader has nothing left to do, and owes the server no answer. -/
def IsIdle (w : Listening) : Prop :=
  w.exchange.client.readerTurn = none ∧ w.exchange.client.answering = none

/-- What a server may rely on, after a history of events, when the client answers with a folder. -/
structure Replied (uri name : String) (t : List RequestEvent) (w : Listening) : Prop where
  /-- The messages of the server are taken in their order, and all of them when the reader is idle. -/
  taken : ∀ messages stops, Wire.Reads w.arrived messages stops →
    heard t <+: messages ∧ (w.IsIdle → heard t = messages)
  /-- What was written without a method, and the answer that the reader owes, are the answers to the messages
  that were taken: one for each that asks, in their order. -/
  replies : Client.Replies uri name (heard t)
    (Exchange.answersOf w.exchange.client.wire.written ++ w.exchange.client.owed)
  /-- A message with a method leaves the requests of the client alone, whatever its id is. -/
  apart : ∀ m v, w.Step (.heard m) v → Client.methodOf? m ≠ none →
    v.exchange.client.pending = w.exchange.client.pending ∧
      v.exchange.client.answers = w.exchange.client.answers ∧ v.exchange.requests = w.exchange.requests
  /-- What the server has said to a request was said by a message without a method. -/
  completed : ∀ before n now result after, t = before ++ .returned n now result :: after →
    Exchange.IsAnswer result → ∃ first, ∃ id : Nat, ∃ method limit between m later,
      before = first ++ .asked n id method limit :: (between ++ .heard m :: later) ∧
      Client.methodOf? m = none ∧ (m.field? "id").bind Client.idNumber? = some (id : Int) ∧
      result = ServerCall.outcome method m

/-! ### All is answered -/

theorem Serving.tended (ht : Exchange.Tended uri name t w.exchange) (h : Serving w e w') :
    Exchange.Tended uri name (t ++ [e]) w'.exchange := by
  obtain ⟨hstep, hkeeps⟩ := h
  cases hstep with
  | arrive bytes accepts ended => exact ht.step (.serve bytes accepts ended) hkeeps
  | go hstep => exact ht.step hstep hkeeps

/-- The answer that the reader owes can be written. -/
theorem exists_run_answered (ht : Exchange.Tended uri name t w.exchange)
    (haccepts : w.exchange.client.wire.accepts = true) :
    ∃ t' v, Run Serving w t' v ∧ v.exchange.client.answering = none ∧
      v.exchange.client.wire.accepts = true ∧
      v.exchange.client.wire.incoming = w.exchange.client.wire.incoming ∧ v.arrived = w.arrived ∧
      Exchange.Tended uri name (t ++ t') v.exchange := by
  -- Whoever writes leaves the queue, until it is the reader's turn.
  induction hlength : w.exchange.client.writer.queue.length using Nat.strongRecOn generalizing w t with
  | ind length ih =>
    by_cases howed : w.exchange.client.answering = none
    · exact ⟨[], w, .nil, howed, haccepts, rfl, rfl, by simpa using ht⟩
    · obtain ⟨e, x, hstep, hincoming, haccepts', hless⟩ := ht.exists_step haccepts howed
      have hserving : Serving w e { w with exchange := x } :=
        ⟨.go hstep (by rw [hincoming]), fun _ _ ↦ haccepts⟩
      obtain ⟨t', v, hrun, hanswering, hv, hsame, harrived, htended⟩ :=
        ih _ (hlength ▸ hless) (hserving.tended ht) haccepts' rfl
      exact ⟨e :: t', v, (Run.nil.snoc hserving).append hrun, hanswering, hv, hsame.trans hincoming,
        harrived, by simpa using htended⟩

/-- A reader that owes no answer takes some bytes, or comes to the end. -/
theorem shrinks_readerTurn {c c' : Client} (h : c.readerTurn = some c') (hanswering : c.answering = none) :
    c'.wire.incoming <:+ c.wire.incoming ∧
      (c'.closed = true ∧ c'.answering = none ∨ c'.wire.incoming.length < c.wire.incoming.length) := by
  have hreads := (Client.reads_of_readerTurn h).2
  generalize c.reading = reading at hreads
  cases hreads with
  | answers hsome => exact absurd (hanswering.symm.trans hsome) nofun
  | hears _ hincoming hfeed =>
    obtain ⟨used, hbytes, hused, -, -⟩ := Decoder.exists_of_feed hfeed
    have hne : used ≠ [] := by
      rintro rfl
      simp at hused
    rw [(Client.handles _ _).sameStream.incoming, hbytes]
    refine ⟨List.suffix_append .., Or.inr ?_⟩
    rw [List.length_append]
    exact Nat.lt_add_of_pos_left (List.length_pos_of_ne_nil hne)
  | waits _ hincoming hfeed | breaks _ hincoming hfeed =>
    obtain ⟨used, -, -, hrest, -⟩ := Decoder.exists_of_feed hfeed
    obtain rfl := hrest rfl
    exact ⟨List.nil_suffix, Or.inr (List.length_pos_of_ne_nil hincoming)⟩
  | ends => exact ⟨List.suffix_refl _, Or.inl ⟨rfl, hanswering⟩⟩

/-- The reader can always take all messages that have arrived, and write all answers. -/
theorem exists_run_idle (ht : Exchange.Tended uri name t w.exchange)
    (haccepts : w.exchange.client.wire.accepts = true) :
    ∃ t' v, Run Serving w t' v ∧ v.IsIdle ∧ v.arrived = w.arrived := by
  induction hlength : w.exchange.client.wire.incoming.length using Nat.strongRecOn generalizing w t with
  | ind length ih =>
    obtain ⟨t₁, v, hrun, hanswering, hv, hsame, harrived, htended⟩ := exists_run_answered ht haccepts
    cases hturn : v.exchange.client.readerTurn with
    | none => exact ⟨t₁, v, hrun, ⟨hturn, hanswering⟩, harrived⟩
    | some c' =>
      obtain ⟨hsuffix, hshrinks⟩ := shrinks_readerTurn hturn hanswering
      have hserving : Serving v (.ofReading v.exchange.client.reading)
          { v with exchange := { v.exchange with client := c' } } :=
        ⟨.go (.read hturn rfl) hsuffix, fun _ _ ↦ hv⟩
      rcases hshrinks with ⟨hclosed, hnone⟩ | hless
      · refine ⟨_, _, hrun.snoc hserving, ⟨?_, hnone⟩, harrived⟩
        simp only [Client.readerTurn, hclosed, if_true]
      · have hv' : c'.wire.accepts = true := (Client.moves_readerTurn hturn).1.accepts.trans hv
        rw [hsame, hlength] at hless
        obtain ⟨t', u, hrest, hidle, hu⟩ := ih _ hless (hserving.tended htended) hv' rfl
        exact ⟨_, u, (hrun.snoc hserving).append hrest, hidle, hu.trans harrived⟩

/-! ### What a server may rely on -/

theorem tended_start {url : Url} (hurl : Url.ofFolder? root = some url)
    (hc : Client.start root limit = .ok c) :
    Exchange.Tended url.text (root.fileName?.getD "workspace") [] (start c).exchange := by
  simp only [Client.start, hurl, Except.ok.injEq] at hc
  subst hc
  exact ⟨rfl, ⟨[], Post.lined_fresh⟩, by simp [start, Exchange.start, Exchange.drafts], by
    simp [start, Exchange.start], .nil⟩

theorem tended_of_run {url : Url} (hurl : Url.ofFolder? root = some url)
    (hc : Client.start root limit = .ok c) (h : Run Serving (start c) t w) :
    Exchange.Tended url.text (root.fileName?.getD "workspace") t w.exchange :=
  h.invariant (P := fun t w ↦ Exchange.Tended url.text (root.fileName?.getD "workspace") t w.exchange)
    (tended_start hurl hc) fun _ _ _ _ _ ht hserving ↦ hserving.tended ht

theorem exchange_of_run (h : Run Step (start c) t w) : Run Exchange.Step (.start c) t w.exchange :=
  h.invariant (P := fun t w ↦ Run Exchange.Step (.start c) t w.exchange) .nil fun _ _ _ _ _ hrun hstep ↦ by
    cases hstep with
    | arrive bytes accepts ended => exact hrun.snoc (.serve bytes accepts ended)
    | go hstep => exact hrun.snoc hstep

/-- A message with a method leaves the requests of the client alone. -/
theorem apart_of_step {m : Json} (h : w.Step (.heard m) w') (hmethod : Client.methodOf? m ≠ none) :
    w'.exchange.client.pending = w.exchange.client.pending ∧
      w'.exchange.client.answers = w.exchange.client.answers ∧
      w'.exchange.requests = w.exchange.requests := by
  obtain ⟨method, hmethod⟩ := Option.ne_none_iff_exists'.mp hmethod
  have hnone : Client.answered? m = none := Client.answered?_of_method hmethod
  cases h with
  | go hstep =>
    cases hstep with
    | read hturn he =>
      have hreading : w.exchange.client.reading = .message m := by
        cases hr : w.exchange.client.reading <;> simp_all [RequestEvent.ofReading]
      obtain ⟨rest, decoder, rfl⟩ := Client.readerTurn_of_message hturn hreading
      exact ⟨((Client.handles _ m).alike hnone).pending, ((Client.handles _ m).alike hnone).answers, rfl⟩

/-- What was said to a request was said without a method. -/
theorem completed_of_run {before after : List RequestEvent} {n now : Nat} {result : Except SessionError Json}
    (hc : Client.start root limit = .ok c)
    (h : Run Step (start c) (before ++ .returned n now result :: after) w)
    (hresult : Exchange.IsAnswer result) : ∃ first, ∃ id : Nat, ∃ method limit between m later,
      before = first ++ .asked n id method limit :: (between ++ .heard m :: later) ∧
      Client.methodOf? m = none ∧ (m.field? "id").bind Client.idNumber? = some (id : Int) ∧
      result = ServerCall.outcome method m := by
  obtain ⟨first, id, method, limit, between, m, later, hbefore, hm, -, hout⟩ :=
    Exchange.answered_of_run hc hresult (exchange_of_run h)
  simp only [Client.answered?] at hm
  split at hm
  · cases hm
  · rename_i hnone
    exact ⟨first, id, method, limit, between, m, later, hbefore, hnone, hm, hout⟩

/-- In every run of callers with a client that was just started, in which a server sends what it likes and
takes the answers that are written to it, it may rely on these. As long as it takes messages, the reader can
go on until it has taken and answered all that has arrived. -/
theorem replied_of_run (hc : Client.start root limit = .ok c) (h : Run Serving (start c) t w) :
    ∃ url, Url.ofFolder? root = some url ∧
      Replied url.text (root.fileName?.getD "workspace") t w ∧
      (w.exchange.client.wire.accepts = true →
        ∃ t' v, Run Serving w t' v ∧ v.IsIdle ∧ v.arrived = w.arrived) := by
  obtain ⟨url, hurl⟩ : ∃ url, Url.ofFolder? root = some url := by
    cases hurl : Url.ofFolder? root with
    | none => simp [Client.start, hurl] at hc
    | some url => exact ⟨url, rfl⟩
  have hstep : Run Step (start c) t w := h.mono fun _ _ _ ↦ And.left
  have hkept := kept_of_run hc hstep
  have htended := tended_of_run hurl hc h
  refine ⟨url, hurl, ⟨fun messages stops hreads ↦ ?_, htended.replies, ?_, ?_⟩, exists_run_idle htended⟩
  · exact ⟨hkept.heard_prefix hreads, fun hidle ↦ hkept.heard_eq hidle.1 hidle.2 hreads⟩
  · exact fun m v ↦ apart_of_step
  · rintro before n now result after rfl
    exact completed_of_run hc hstep

/-- The server asks for its configuration with the number of a request that waits for its own answer. It gets
an array with two nulls, and the request goes on waiting. -/
theorem replied_configuration : ∃ c t w, Client.start ⟨"/a"⟩ none = .ok c ∧ Run Serving (start c) t w ∧
    w.exchange.client.pending = [1] ∧
    w.exchange.client.wire.written.map
      (fun m ↦ ((m.field? "result").bind Json.array?).map (·.map Json.isNull)) =
        [none, some [true, true]] ∧
    ∃ url, Url.ofFolder? ⟨"/a"⟩ = some url ∧ Replied url.text "a" t w ∧
      (w.exchange.client.wire.accepts = true →
        ∃ t' v, Run Serving w t' v ∧ v.IsIdle ∧ v.arrived = w.arrived) := by
  let body := "\x7b\"id\":1,\"method\":\"workspace/configuration\",\"params\":\x7b\"items\":[1,2]\x7d\x7d"
  let bytes := ("Content-Length: 68\r\n\r\n" ++ body).toUTF8.data.toList
  let c : Client :=
    { wire := .fresh, rootUri := "file:///a/", rootName := "a", requestLimit := none, nextId := 1
      pending := [], answers := [], writer := .free, decoder := .fresh, answering := none, closed := false }
  have hc : Client.start ⟨"/a"⟩ none = .ok c := rfl
  -- The server takes messages all the time.
  let takes (w : Listening) (m : Option (List UInt8)) : Option (RequestEvent × Listening) :=
    (w.move m).filter fun _ ↦ w.exchange.client.wire.accepts
  have htakes (w : Listening) (m : Option (List UInt8)) (e : RequestEvent) (v : Listening)
      (h : takes w m = some (e, v)) : Serving w e v := by
    obtain ⟨hmove, haccepts⟩ := Option.filter_eq_some_iff.mp h
    exact ⟨step_of_move hmove, fun _ _ ↦ haccepts⟩
  have asked : Run Serving (start c) _ _ := Run.nil.snoc
    ⟨.go (@Exchange.Step.ask _ "ping" .null none _ _ rfl) (List.suffix_refl _), fun h ↦ absurd rfl h⟩
  let waiting : Client :=
    { c with
      wire := { c.wire with written := [Client.requestMessage 1 "ping" .null] }, nextId := 2, pending := [1]
      writer := ⟨1, []⟩ }
  have written : Run Serving (start c) _ ⟨⟨waiting, [some (.awaiting 1 "ping" none none)], [], 0⟩, []⟩ :=
    asked.snoc ⟨.go (@Exchange.Step.write _ 0 _ _ _ rfl rfl) (List.suffix_refl _), fun h ↦ absurd rfl h⟩
  obtain ⟨t, w, hplay, hcheck⟩ := exists_run_of_play takes htakes
    ⟨⟨waiting, [some (.awaiting 1 "ping" none none)], [], 0⟩, []⟩ [some bytes, none, none]
    (fun _ w ↦ w.exchange.client.pending = [1] && w.exchange.client.wire.written.map
      (fun m ↦ ((m.field? "result").bind Json.array?).map (·.map Json.isNull)) =
        [none, some [true, true]]) (by decide +kernel)
  have hall := written.append hplay
  obtain ⟨hpending, hwritten⟩ := (Bool.and_eq_true ..).mp hcheck
  exact ⟨c, _, w, hc, hall, of_decide_eq_true hpending, of_decide_eq_true hwritten, replied_of_run hc hall⟩

end Listening

end CodeNav
