import CodeNav.Proofs.Server.Lifecycle
import CodeNav.Proofs.Server.Post

/-!
# What happens to documents

Who opens a document queues up for it, and then tells the server its text or finds that the server
knows it. Everything else that is done with a session leaves the documents as they are. What the steps
of a session do to documents is said once, by `SessionWorld.Treats`.

## Main definitions

* `Session.told`: what the server has been told of a document
* `Session.Aside`: nothing is done to documents
* `SessionWorld.Spoken`: whoever waits for the writer has a message of the kind that is its own
* `SessionWorld.Serves`: what a call that opens a document is at
* `SessionWorld.Treats`: what the steps do to documents

## Main statements

* `SessionWorld.Spoken.step`: the steps keep messages to their kinds
* `SessionWorld.Step.treats`: every step treats documents in one of these ways
-/

namespace CodeNav

/-- The messages about a document among those that were written. -/
def Post.told (p : Post) (uri : String) : List Json :=
  p.written.filter fun m ↦ MessageKind.of m = .text (some uri)

/-- A writer whose message is about no document tells nothing about any. -/
theorem Post.Moves.told {p p' : Post} {d d' : Option Note} (h : p.Moves d d' p')
    (hkind : ∀ n ∈ d, ∀ uri, MessageKind.of n.message ≠ .text (some uri)) (uri : String) :
    p'.told uri = p.told uri := by
  rcases h.written with hwritten | ⟨n, rfl, hwritten⟩
  · rw [Post.told, Post.told, hwritten]
  · simp [Post.told, hwritten, List.filter_append, hkind n rfl uri]

namespace Session

variable {s s' s'' : Session} {c c' : Client} {now : Nat} {phase phase' : SessionPhase}

/-! ### What the server is told -/

/-- The messages about a document, in the order in which they were written. -/
def told (s : Session) (uri : String) : List Json :=
  s.post.told uri

/-- Nothing is done to documents. -/
structure Aside (s s' : Session) : Prop where
  checkout : s'.checkout = s.checkout
  slot : ∀ uri, s'.slot uri = s.slot uri
  told : ∀ uri, s'.told uri = s.told uri

namespace Aside

theorem refl (s : Session) : Aside s s := ⟨rfl, fun _ ↦ rfl, fun _ ↦ rfl⟩

/-- Where documents are depends on the checkout only. -/
theorem documentUri (h : Aside s s') (path : String) : s'.documentUri path = s.documentUri path := by
  simp only [Session.documentUri, documentFile, h.checkout]

theorem of_moves {d d' : Option Note} (hcheckout : s'.checkout = s.checkout)
    (hdocuments : s'.documents = s.documents) (h : s.post.Moves d d' s'.post)
    (hkind : ∀ n ∈ d, ∀ uri, MessageKind.of n.message ≠ .text (some uri)) : Aside s s' :=
  ⟨hcheckout, slot_of_documents hdocuments, h.told hkind⟩

/-- Nothing is written. -/
theorem of_written (hcheckout : s'.checkout = s.checkout) (hdocuments : s'.documents = s.documents)
    (h : s'.post.written = s.post.written) : Aside s s' :=
  ⟨hcheckout, slot_of_documents hdocuments, fun uri ↦ by
    rw [Session.told, Session.told, Post.told, Post.told, h]⟩

end Aside

theorem aside_observe (s : Session) : Aside s s.observe :=
  .of_written (by simp only [observe]; split <;> rfl) (by simp only [observe]; split <;> rfl)
    (by rw [post_observe])

end Session

namespace SessionPhase

/-- The place that a call has in the queue of a document. -/
def seat? : SessionPhase → Option (String × Nat)
  | queued uri ticket _ _ _ => some (uri, ticket)
  | sending uri ticket _ _ => some (uri, ticket)
  | _ => none

/-- Who has no place at a document has no message about one. -/
theorem Worded.not_text {phase : SessionPhase} (h : phase.Worded) (hseat : phase.seat? = none) :
    ∀ n ∈ phase.draft?, ∀ uri, MessageKind.of n.message ≠ .text (some uri) := by
  intro n hn uri
  rw [h n hn]
  cases phase with
  | sending => cases hseat
  | _ => exact nofun

end SessionPhase

namespace Session

variable {s s' : Session} {now : Nat} {phase phase' : SessionPhase}

/-! ### Calls aside from documents -/

theorem checkout_observe (s : Session) : s.observe.checkout = s.checkout := s.aside_observe.checkout

theorem documents_observe (s : Session) : s.observe.documents = s.documents := by
  simp only [observe]
  split <;> rfl

theorem aside_beginExit (s : Session) : Aside s s.beginExit.2 := by
  have hmoves := s.moves_beginExit.1
  rcases s.beginExit_eq with heq | ⟨c, c', note, -, -, heq⟩ <;>
  · rw [heq] at hmoves ⊢
    exact .of_moves rfl rfl hmoves nofun

/-- A call begins aside from documents, unless it queues up for one. -/
theorem Begins.aside {what : SessionCall} {b : SessionPhase ⊕ SessionResult}
    (h : Begins s what b s') (hopen : ∀ path text, what ≠ .didOpen path text) :
    Aside s s' ∧ ∀ phase, b = .inl phase → phase.seat? = none := by
  have hmoves := h.moves.1
  cases h with
  | start => exact ⟨.of_written rfl rfl rfl, by rintro _ ⟨⟩; rfl⟩
  | wait => exact ⟨.refl s, by rintro _ ⟨⟩; rfl⟩
  | atOnce => exact ⟨s.aside_observe, nofun⟩
  | tell =>
    exact ⟨.of_moves s.checkout_observe s.documents_observe hmoves nofun, by rintro _ ⟨⟩; rfl⟩
  | enter => exact absurd rfl (hopen _ _)
  | ask | shut =>
    exact ⟨.of_moves s.checkout_observe s.documents_observe hmoves nofun, by rintro _ ⟨⟩; rfl⟩
  | exit what s₀ hs₀ =>
    refine ⟨?_, ?_⟩
    · rcases hs₀ with rfl | rfl
      · exact s₀.aside_beginExit
      · have hexit := s.observe.aside_beginExit
        refine ⟨hexit.checkout.trans s.checkout_observe, fun uri ↦ ?_, fun uri ↦ ?_⟩
        · rw [hexit.slot, slot_observe]
        · rw [hexit.told, s.aside_observe.told]
    · rcases s₀.beginExit_eq with heq | ⟨c, c', note, -, -, heq⟩
      · simp [heq]
      · rw [heq]
        rintro _ ⟨⟩
        rfl

/-- A call that cannot open a document at once has failed. -/
theorem begin_didOpen_ne_ok (s : Session) (path text : String) (a : SessionAnswer) :
    (begin (.didOpen path text) s).1 ≠ .inr (.ok a) := by
  simp only [begin]
  split
  · simp
  · split <;> simp

/-- A call goes on aside from documents, unless it has a place at one. -/
theorem Goes.aside (h : Goes now s phase phase' s') (hworded : phase.Worded)
    (hseat : phase.seat? = none) : Aside s s' ∧ phase'.seat? = none := by
  obtain ⟨⟨p, hfirst, hsecond⟩, -⟩ := h.moves
  have htold : ∀ uri, s'.told uri = s.told uri := fun uri ↦
    (hsecond.told nofun uri).trans (hfirst.told (hworded.not_text hseat) uri)
  cases h with
  | send => cases hseat
  | await | awaitShutdown | exit => exact ⟨⟨rfl, slot_of_documents rfl, htold⟩, rfl⟩

/-- A call is over aside from documents, unless it has a place at one. -/
theorem Ends.aside {r : SessionResult} (h : Ends now s phase r s') (hworded : phase.Worded)
    (hseat : phase.seat? = none) : Aside s s' := by
  have htold := h.moves.1.told (hworded.not_text hseat)
  cases h with
  | settled => exact s.aside_observe
  | known | refused | sent | failed => cases hseat
  | shaken | told | answered | shut | exited => exact ⟨rfl, slot_of_documents rfl, htold⟩

/-- What was written is not taken back when a call is given up. -/
theorem written_drop (phase : SessionPhase) (s : Session) :
    (drop phase s).post.written = s.post.written := by
  rw [(post_drop phase s).1]
  split <;> rfl

theorem aside_drop (s : Session) (hseat : phase.seat? = none) : Aside s (drop phase s) := by
  cases phase with
  | queued | sending => cases hseat
  | _ => exact .of_written rfl rfl (written_drop _ s)

/-! ### The handshake and the reader -/

theorem aside_launched (started : Except SessionError Unit) (h : s.client = none) :
    Aside s (s.launched started) := by
  refine .of_moves ?_ ?_ (s.moves_launched started h).1 nofun <;>
  · simp only [launched]
    split
    · rfl
    · split
      · rfl
      · split <;> rfl

theorem aside_handshakeTurn {r : Unit}
    (h : handshakeTurn now s = .moved r s' ∨ handshakeTurn now s = .finished r s')
    (hkind : ∀ n ∈ s.handshake.draft?, MessageKind.of n.message = .greeting) : Aside s s' := by
  have hmoves := (moves_handshakeTurn h).1
  have hsame : s'.checkout = s.checkout ∧ s'.documents = s.documents := by
    rcases h with h | h
    · obtain ⟨_, _, _, _, _, _, _, _, rfl⟩ := handshakeTurn_eq_moved h
      exact ⟨rfl, rfl⟩
    · obtain ⟨_, _, c', r', _, _, _, _, rfl⟩ := handshakeTurn_eq_finished h
      cases r' with
      | error e => exact ⟨rfl, rfl⟩
      | ok answer =>
        simp only [handshakeAnswered]
        split <;> exact ⟨rfl, rfl⟩
  exact .of_moves hsame.1 hsame.2 hmoves fun n hn uri ↦ by simp [hkind n hn]

theorem aside_readerTurn {c c' : Client} (hclient : s.client = some c)
    (h : c.readerTurn = some c')
    (hkind : ∀ n ∈ s.reply?, MessageKind.of n.message = .answer) : Aside s (s.withClient c') := by
  have hmoves := (Client.moves_readerTurn h).1
  rw [← post_of_client hclient, ← reply?_of_client hclient] at hmoves
  exact .of_moves rfl rfl hmoves fun n hn uri ↦ by simp [hkind n hn]

end Session

/-! ### Kinds of messages -/

/-- The handshake does not come to a message when a call begins. -/
theorem Session.draft?_handshake_begin (s : Session) (what : SessionCall) :
    ∀ d ∈ (Session.begin what s).2.handshake.draft?, d ∈ s.handshake.draft? := by
  intro d hd
  by_cases hstart : ∃ context, what = .start context ∧ s.state = .created
  · obtain ⟨context, rfl, hcreated⟩ := hstart
    rw [Session.begin_start context hcreated] at hd
    cases hd
  · rwa [(s.beside_begin fun context hwhat hcreated ↦
      hstart ⟨context, hwhat, hcreated⟩).handshake] at hd

namespace SessionWorld

variable {w w' : SessionWorld} {e : SessionEvent} {t : List SessionEvent} {key : RepositoryKey}
  {checkout : Path} {options : SessionOptions}

/-- Whoever waits for the writer has a message of the kind that is its own. -/
structure Spoken (w : SessionWorld) : Prop where
  calls : ∀ (n : Nat) what phase, w.calls[n]? = some ⟨what, some phase⟩ → phase.Worded
  handshake : ∀ d ∈ w.session.handshake.draft?, MessageKind.of d.message = .greeting
  reply : ∀ d ∈ w.session.reply?, MessageKind.of d.message = .answer

namespace Spoken

theorem create : Spoken (create key checkout options) :=
  ⟨nofun, nofun, nofun⟩

/-- A call has gone on or is over, beside the handshake and the reader. -/
theorem set (h : w.Spoken) {n : Nat} {what : SessionCall} {phase : SessionPhase} {s : Session}
    {launching : Option LaunchSpec} {now : Nat} (hn : w.calls[n]? = some ⟨what, some phase⟩)
    (phase' : Option SessionPhase) (hphase : ∀ p, phase' = some p → p.Worded)
    (hs : w.session.Beside s) (hreply : s.reply? = w.session.reply?) :
    Spoken ⟨s, w.calls.set n ⟨what, phase'⟩, launching, now⟩ where
  calls m what' p hm := by
    rcases (getElem?_set_eq_some hn).mp hm with ⟨-, heq⟩ | ⟨-, hm⟩
    · exact hphase p (SessionEntry.mk.inj heq).2.symm
    · exact h.calls m what' p hm
  handshake := by
    change ∀ d ∈ s.handshake.draft?, _
    rw [hs.handshake]
    exact h.handshake
  reply := by
    change ∀ d ∈ s.reply?, _
    rw [hreply]
    exact h.reply

/-- The steps keep messages to their kinds. -/
theorem step (h : w.Spoken) (hphased : w.Phased) (hstep : Step w e w') : w'.Spoken := by
  cases hstep with
  | begin what =>
    have hbegins := w.session.begins_begin what
    refine ⟨fun m what' p hm ↦ ?_, fun d hd ↦ ?_, ?_⟩
    · rcases getElem?_concat_eq_some.mp hm with hm | ⟨-, heq⟩
      · exact h.calls m what' p hm
      · refine hbegins.worded ?_
        cases hb : (Session.begin what w.session).1 with
        | inl phase => simp_all [phaseOf]
        | inr r => simp_all [phaseOf]
    · exact h.handshake d (w.session.draft?_handshake_begin what d hd)
    · rw [hbegins.moves.2]
      exact h.reply
  | @turn n what phase phase' s fs hn hturn =>
    have hgoes := Session.goes_of_turn hturn
    have hbeside := (w.session.leads_turn fs w.now phase).moved hturn
    exact h.set hn _ (by rintro p ⟨⟩; exact hgoes.worded) hbeside hgoes.moves.2
  | @finish n what phase r s fs hn hturn =>
    have hends := Session.ends_of_turn hturn
    have hbeside := (w.session.leads_turn fs w.now phase).finished hturn
    exact h.set hn _ nofun hbeside hends.moves.2
  | drop hn => exact h.set hn _ nofun (w.session.beside_drop _) (Session.post_drop _ _).2
  | observe =>
    refine ⟨h.calls, ?_, ?_⟩
    · simpa using h.handshake
    · simpa using h.reply
  | launch => exact ⟨h.calls, h.handshake, h.reply⟩
  | launched started hspec hlaunching =>
    obtain ⟨-, hreply, hkind⟩ := w.session.moves_launched started (hphased.launching _ hspec)
    exact ⟨h.calls, hkind, by simp [hreply]⟩
  | shake hturn =>
    obtain ⟨-, hdraft, hreply⟩ := Session.moves_handshakeTurn (Or.inl hturn)
    exact ⟨h.calls, by simp [hdraft], by simpa [hreply] using h.reply⟩
  | shaken hturn =>
    obtain ⟨-, hdraft, hreply⟩ := Session.moves_handshakeTurn (Or.inr hturn)
    exact ⟨h.calls, by simp [hdraft], by simpa [hreply] using h.reply⟩
  | read hclient hread =>
    refine ⟨h.calls, h.handshake, (Client.moves_readerTurn hread).2 ?_⟩
    rw [← Session.reply?_of_client hclient]
    exact h.reply
  | serve bytes accepts ended hclient =>
    refine ⟨h.calls, h.handshake, ?_⟩
    have hreply := h.reply
    rwa [Session.reply?_of_client hclient] at hreply
  | pass => exact ⟨h.calls, h.handshake, h.reply⟩

end Spoken

theorem spoken_of_run (h : Run Step (create key checkout options) t w) : w.Spoken :=
  h.invariant (P := fun _ w ↦ w.Spoken) .create fun _ _ _ _ hrun hu hstep ↦
    hu.step (lived_of_run hrun).phased hstep

/-! ### What the steps do -/

/-- What a call is at: one that opens a document has a place at the document, and the others have none.
The text that is being sent is not the one that the server knows. -/
def Serves (s : Session) (what : SessionCall) : SessionPhase → Prop
  | .queued uri _ _ text digest =>
    ∃ path, what = .didOpen path text ∧ s.documentUri path = .ok uri ∧ digest = Digest.ofText text
  | .sending uri _ opened note =>
    ∃ path language text, what = .didOpen path text ∧ s.documentUri path = .ok uri ∧
      note.message = Session.textMessage uri language text (s.slot uri).opened ∧
      opened = Session.nextDocument (Digest.ofText text) (s.slot uri).opened ∧
      ∀ known, (s.slot uri).opened = some known → known.digest ≠ Digest.ofText text
  | _ => ∀ path text, what ≠ .didOpen path text

/-- Who comes and goes at a document changes nothing of what is remembered of any. -/
theorem opened_of_lock {s s' : Session} {uri : String} {lock : FairLock}
    (hslot : ∀ other, s'.slot other = if other = uri then { s.slot uri with lock := lock } else s.slot other)
    (other : String) : (s'.slot other).opened = (s.slot other).opened := by
  rw [hslot]
  split
  · rename_i hother
    rw [hother]
  · rfl

/-- What the steps do to documents. -/
inductive Treats (w : SessionWorld) : SessionEvent → SessionWorld → Prop
  /-- Documents stay as they are, and so do the calls that open them. -/
  | aside {e : SessionEvent} {w' : SessionWorld} (hs : w.session.Aside w'.session)
      (hcalls : ∀ (n : Nat) what phase, w'.calls[n]? = some ⟨what, some phase⟩ →
        w.calls[n]? = some ⟨what, some phase⟩ ∨
          phase.seat? = none ∧ ∀ path text, what ≠ .didOpen path text)
      (hgives : ∀ path text a, e.gives ≠ some (.didOpen path text, .ok a)) : Treats w e w'
  /-- A call queues up for a document. -/
  | enter {w' : SessionWorld} {path text uri : String} (language : String)
      (huri : w.session.documentUri path = .ok uri)
      (hcheckout : w'.session.checkout = w.session.checkout)
      (hslot : ∀ other, w'.session.slot other =
        if other = uri then
          { w.session.slot uri with lock := (w.session.slot uri).lock.enter.2 }
        else w.session.slot other)
      (htold : ∀ other, w'.session.told other = w.session.told other)
      (hcalls : w'.calls = w.calls ++ [⟨.didOpen path text,
        some (.queued uri (w.session.slot uri).lock.enter.1 language text
          (Digest.ofText text))⟩]) :
      Treats w (.began w.calls.length (.didOpen path text) w.session.state none) w'
  /-- A call has the document for itself, and the server does not know its text. -/
  | send {w' : SessionWorld} {n : Nat} {what : SessionCall} {uri language text digest : String}
      {ticket : Nat} {note : Note}
      (hn : w.calls[n]? = some ⟨what, some (.queued uri ticket language text digest)⟩)
      (hs : w.session.Aside w'.session)
      (hholder : (w.session.slot uri).lock.isHolder ticket = true)
      (hmessage : note.message =
        Session.textMessage uri language text (w.session.slot uri).opened)
      (hnew : ∀ known, (w.session.slot uri).opened = some known → known.digest ≠ digest)
      (hcalls : w'.calls = w.calls.set n ⟨what, some (.sending uri ticket
        (Session.nextDocument digest (w.session.slot uri).opened) note)⟩) :
      Treats w .other w'
  /-- A call leaves a document: it is given up, it fails, or the server knows its text. -/
  | leave {e : SessionEvent} {w' : SessionWorld} {n : Nat} {what : SessionCall}
      {phase : SessionPhase} {uri : String} {ticket : Nat}
      (hn : w.calls[n]? = some ⟨what, some phase⟩) (hseat : phase.seat? = some (uri, ticket))
      (hcheckout : w'.session.checkout = w.session.checkout)
      (hslot : ∀ other, w'.session.slot other =
        if other = uri then
          { w.session.slot uri with lock := (w.session.slot uri).lock.leave ticket }
        else w.session.slot other)
      (htold : ∀ other, w'.session.told other = w.session.told other)
      (hcalls : w'.calls = w.calls.set n ⟨what, none⟩)
      (hgives : ∀ what' a, e.gives = some (what', .ok a) → what' = what ∧
        ∃ language text known, phase = .queued uri ticket language text known.digest ∧
          (w.session.slot uri).opened = some known) :
      Treats w e w'
  /-- The server is told a text. -/
  | tell {w' : SessionWorld} {n : Nat} {what : SessionCall} {uri : String} {ticket : Nat}
      {opened : OpenDocument} {note : Note}
      (hn : w.calls[n]? = some ⟨what, some (.sending uri ticket opened note)⟩)
      (hcheckout : w'.session.checkout = w.session.checkout)
      (hslot : ∀ other, w'.session.slot other =
        if other = uri then
          { w.session.slot uri with
            lock := (w.session.slot uri).lock.leave ticket
            opened := some opened }
        else w.session.slot other)
      (htold : ∀ other, w'.session.told other =
        w.session.told other ++ if other = uri then [note.message] else [])
      (hcalls : w'.calls = w.calls.set n ⟨what, none⟩) :
      Treats w (.returned n what (.ok .done)) w'

/-- Whoever has a place at a document is in its queue, everybody in a place of their own. Who sends a
text has the document for itself. -/
structure Seated (w : SessionWorld) : Prop where
  wellFormed : ∀ uri, (w.session.slot uri).lock.WellFormed
  serves : ∀ (n : Nat) what phase, w.calls[n]? = some ⟨what, some phase⟩ →
    Serves w.session what phase
  queued : ∀ (n : Nat) what phase uri ticket, w.calls[n]? = some ⟨what, some phase⟩ →
    phase.seat? = some (uri, ticket) → ticket ∈ (w.session.slot uri).lock.queue
  apart : ∀ (n m : Nat) what what' phase phase' seat, w.calls[n]? = some ⟨what, some phase⟩ →
    w.calls[m]? = some ⟨what', some phase'⟩ → phase.seat? = some seat → phase'.seat? = some seat →
    n = m
  holder : ∀ (n : Nat) what uri ticket opened note,
    w.calls[n]? = some ⟨what, some (.sending uri ticket opened note)⟩ →
    (w.session.slot uri).lock.isHolder ticket = true

theorem Serves.not_didOpen {s : Session} {what : SessionCall} {phase : SessionPhase}
    (h : Serves s what phase) (hseat : phase.seat? = none) :
    ∀ path text, what ≠ .didOpen path text := by
  cases phase with
  | queued | sending => cases hseat
  | _ => exact h

/-- A call is the one that has gone on aside from documents, or is as before. -/
theorem calls_set_of_seat?_eq_none {n : Nat} {what : SessionCall} {phase : SessionPhase}
    (phase' : Option SessionPhase) (hn : w.calls[n]? = some ⟨what, some phase⟩)
    (hphase : ∀ p, phase' = some p → p.seat? = none ∧ ∀ path text, what ≠ .didOpen path text)
    (m : Nat) (what' : SessionCall) (p : SessionPhase)
    (hm : (w.calls.set n ⟨what, phase'⟩)[m]? = some ⟨what', some p⟩) :
    w.calls[m]? = some ⟨what', some p⟩ ∨
      p.seat? = none ∧ ∀ path text, what' ≠ .didOpen path text := by
  rcases (getElem?_set_eq_some hn).mp hm with ⟨-, heq⟩ | ⟨-, hm⟩
  · obtain ⟨rfl, hp⟩ := SessionEntry.mk.inj heq
    exact Or.inr (hphase p hp.symm)
  · exact Or.inl hm

/-- A call that opens a document queues up for it, or fails at once. -/
theorem treats_begin (path text : String) :
    Treats w (.began w.calls.length (.didOpen path text) w.session.state
        (resultOf (Session.begin (.didOpen path text) w.session).1))
      { w with
        session := (Session.begin (.didOpen path text) w.session).2
        calls := w.calls ++
          [⟨.didOpen path text, phaseOf (Session.begin (.didOpen path text) w.session).1⟩] } := by
  have hbegins := w.session.begins_begin (.didOpen path text)
  have hne := w.session.begin_didOpen_ne_ok path text
  have htold : ∀ uri, (Session.begin (.didOpen path text) w.session).2.told uri =
      w.session.told uri := hbegins.moves.1.told nofun
  generalize (Session.begin (.didOpen path text) w.session).1 = b at *
  generalize (Session.begin (.didOpen path text) w.session).2 = s at *
  cases hbegins with
  | atOnce _ r =>
    refine .aside w.session.aside_observe (fun n what phase hn ↦ ?_) ?_
    · rcases getElem?_concat_eq_some.mp hn with hn | ⟨-, heq⟩
      · exact Or.inl hn
      · cases heq
    · intro path' text' a hgives
      simp only [resultOf, SessionEvent.gives, Option.some.injEq, Prod.mk.injEq] at hgives
      exact hne a (by rw [hgives.2])
  | @enter c _ _ uri file hrunning hfile huri =>
    refine .enter (Session.languageOf file) huri ?_ (fun other ↦ ?_) htold rfl
    · exact ((w.session.observe.beside_enterSlot uri).checkout).trans w.session.checkout_observe
    · rw [(w.session.observe.slot_enterSlot uri other).2]
      simp only [Session.slot_observe]
  | ask _ _ hwhat => exact absurd rfl (hwhat _ _)
  | exit _ _ _ hwhat => simp at hwhat

/-- Who has a place at a document goes on by sending its text. -/
theorem treats_turn {n : Nat} {what : SessionCall} {phase phase' : SessionPhase} {s : Session}
    {uri : String} {ticket : Nat} (hn : w.calls[n]? = some ⟨what, some phase⟩)
    (hseat : phase.seat? = some (uri, ticket))
    (h : Session.Goes w.now w.session phase phase' s) :
    Treats w .other { w with session := s, calls := w.calls.set n ⟨what, some phase'⟩ } := by
  obtain ⟨⟨p, hfirst, hsecond⟩, -⟩ := h.moves
  cases h with
  | @send c c' uri language text digest ticket note hholder hclient hopen hticket hc' hmessage hnew =>
    refine .send hn ⟨rfl, fun _ ↦ rfl, fun other ↦ ?_⟩ hholder hmessage hnew rfl
    exact (hsecond.told nofun other).trans (hfirst.told nofun other)
  | await | awaitShutdown | exit => cases hseat

/-- Who has a place at a document leaves it when the call is over. -/
theorem treats_finish {n : Nat} {what : SessionCall} {phase : SessionPhase} {r : SessionResult}
    {s : Session} {uri : String} {ticket : Nat} (hn : w.calls[n]? = some ⟨what, some phase⟩)
    (hseat : phase.seat? = some (uri, ticket)) (hworded : phase.Worded)
    (hqueued : ticket ∈ (w.session.slot uri).lock.queue)
    (h : Session.Ends w.now w.session phase r s) :
    Treats w (.returned n what r) { w with session := s, calls := w.calls.set n ⟨what, none⟩ } := by
  have hne : (w.session.slot uri).lock.queue ≠ [] := List.ne_nil_of_mem hqueued
  cases h with
  | @known uri language text digest ticket opened hholder hopened hdigest =>
    subst hdigest
    refine .leave hn rfl rfl (w.session.slot_leaveSlot uri · ticket) (fun _ ↦ rfl) rfl ?_
    intro what' a hgives
    obtain ⟨rfl, -⟩ := Prod.mk.inj (Option.some.inj hgives)
    exact ⟨rfl, language, text, opened, rfl, hopened⟩
  | @refused uri language text digest ticket e hholder =>
    refine .leave hn rfl rfl (w.session.slot_leaveSlot uri · ticket) (fun _ ↦ rfl) rfl ?_
    intro what' a hgives
    cases (Prod.mk.inj (Option.some.inj hgives)).2
  | @sent c c' uri ticket opened note hclient hturn =>
    obtain ⟨rfl, rfl⟩ := Prod.mk.inj (Option.some.inj hseat)
    have hremember (other : String) :
        ((w.session.withClient c').remember uri opened).slot other =
          if other = uri then { w.session.slot uri with opened := some opened }
          else w.session.slot other :=
      (w.session.withClient c').slot_remember other opened hne
    have hwritten : c'.post.written = w.session.post.written ++ [note.message] := by
      rcases Note.post_of_turn hturn with ⟨-, ⟨-, -, hpost⟩ | ⟨⟨e, he⟩, -⟩⟩
      · rw [hpost, Session.post_of_client hclient]
        rfl
      · cases he
    have hkind : MessageKind.of note.message = .text (some uri) := hworded note rfl
    refine .tell hn rfl (fun other ↦ ?_) (fun other ↦ ?_) rfl
    · rw [Session.slot_leaveSlot, hremember, hremember, if_pos rfl]
      split <;> rfl
    · change c'.post.told other = _
      rw [Session.told, Post.told, Post.told, hwritten, List.filter_append]
      by_cases hother : other = uri
      · simp [hkind, hother]
      · simp [hkind, hother, Ne.symm hother]
  | @failed c c' uri ticket opened note e hclient hturn =>
    obtain ⟨rfl, rfl⟩ := Prod.mk.inj (Option.some.inj hseat)
    refine .leave hn rfl rfl ((w.session.withClient c').slot_leaveSlot uri · ticket)
      (fun other ↦ ?_) rfl ?_
    · change c'.post.told other = _
      rcases Note.post_of_turn hturn with ⟨-, ⟨hr, -⟩ | ⟨-, -, hpost⟩⟩
      · cases hr
      · rw [hpost, Session.told, Session.post_of_client hclient]
        rfl
    · intro what' a hgives
      cases (Prod.mk.inj (Option.some.inj hgives)).2
  | shaken | settled | told | answered | shut | exited => cases hseat

/-- Who has a place at a document leaves it when the call is given up. -/
theorem treats_drop {n : Nat} {what : SessionCall} {phase : SessionPhase} {uri : String}
    {ticket : Nat} (hn : w.calls[n]? = some ⟨what, some phase⟩)
    (hseat : phase.seat? = some (uri, ticket)) :
    Treats w (.dropped n)
      { w with session := Session.drop phase w.session, calls := w.calls.set n ⟨what, none⟩ } := by
  have htold : ∀ other, (Session.drop phase w.session).told other = w.session.told other := by
    intro other
    rw [Session.told, Post.told, Session.written_drop]
    rfl
  cases phase with
  | queued uri' ticket' language text digest =>
    obtain ⟨rfl, rfl⟩ := Prod.mk.inj (Option.some.inj hseat)
    exact .leave hn rfl rfl (w.session.slot_leaveSlot uri' · ticket') htold rfl nofun
  | sending uri' ticket' opened note =>
    obtain ⟨rfl, rfl⟩ := Prod.mk.inj (Option.some.inj hseat)
    exact .leave hn rfl rfl (Session.slot_leaveSlot _ uri' · ticket') htold rfl nofun
  | _ => cases hseat

/-- Every step treats documents in one of these ways. -/
theorem Step.treats (hseated : w.Seated) (hspoken : w.Spoken) (hphased : w.Phased)
    (hstep : Step w e w') : Treats w e w' := by
  have hsame : ∀ {e : SessionEvent} {w' : SessionWorld}, w.session.Aside w'.session →
      w'.calls = w.calls → e.gives = none → Treats w e w' := by
    intro e w' hs hcalls hgives
    exact .aside hs (fun n what phase hn ↦ Or.inl (hcalls ▸ hn)) (by simp [hgives])
  cases hstep with
  | begin what =>
    have hbegins := w.session.begins_begin what
    by_cases hopen : ∀ path text, what ≠ .didOpen path text
    · obtain ⟨hs, hseat⟩ := hbegins.aside hopen
      refine .aside hs (fun m what' p hm ↦ ?_) ?_
      · rcases getElem?_concat_eq_some.mp hm with hm | ⟨-, heq⟩
        · exact Or.inl hm
        · obtain ⟨rfl, hp⟩ := SessionEntry.mk.inj heq
          refine Or.inr ⟨hseat p ?_, hopen⟩
          cases hb : (Session.begin what' w.session).1 <;> simp_all [phaseOf]
      · intro path text a
        cases hb : (Session.begin what w.session).1 <;>
          simp [SessionEvent.gives, resultOf, hopen]
    · push Not at hopen
      obtain ⟨path, text, rfl⟩ := hopen
      exact treats_begin path text
  | @turn n what phase phase' s fs hn hturn =>
    have hgoes := Session.goes_of_turn hturn
    cases hseat : phase.seat? with
    | none =>
      have hserves := hseated.serves n what phase hn
      obtain ⟨hs, hseat'⟩ := hgoes.aside (hspoken.calls n what phase hn) hseat
      refine .aside hs (calls_set_of_seat?_eq_none _ hn ?_) nofun
      rintro p ⟨⟩
      exact ⟨hseat', hserves.not_didOpen hseat⟩
    | some seat => exact treats_turn hn hseat hgoes
  | @finish n what phase r s fs hn hturn =>
    have hends := Session.ends_of_turn hturn
    have hworded := hspoken.calls n what phase hn
    cases hseat : phase.seat? with
    | none =>
      have hwhat := (hseated.serves n what phase hn).not_didOpen hseat
      refine .aside (hends.aside hworded hseat) (calls_set_of_seat?_eq_none _ hn nofun) ?_
      intro path text a hgives
      exact hwhat path text (Prod.mk.inj (Option.some.inj hgives)).1
    | some seat => exact treats_finish hn hseat hworded (hseated.queued n what phase _ _ hn hseat) hends
  | @drop n what phase hn =>
    cases hseat : phase.seat? with
    | none =>
      exact .aside (w.session.aside_drop hseat) (calls_set_of_seat?_eq_none _ hn nofun) nofun
    | some seat => exact treats_drop hn hseat
  | observe => exact hsame w.session.aside_observe rfl rfl
  | launch => exact hsame (.refl _) rfl rfl
  | launched started hspec =>
    exact hsame (w.session.aside_launched started (hphased.launching _ hspec)) rfl rfl
  | shake hturn =>
    exact hsame (Session.aside_handshakeTurn (Or.inl hturn) hspoken.handshake) rfl rfl
  | shaken hturn =>
    exact hsame (Session.aside_handshakeTurn (Or.inr hturn) hspoken.handshake) rfl rfl
  | @read e c c' hclient hread he =>
    refine hsame (Session.aside_readerTurn hclient hread hspoken.reply) rfl ?_
    subst he
    cases c.reading <;> rfl
  | serve bytes accepts ended hclient =>
    refine hsame (.of_written rfl rfl ?_) rfl rfl
    rw [Session.post_of_client hclient]
    rfl
  | pass => exact hsame (.refl _) rfl rfl

end SessionWorld

end CodeNav
