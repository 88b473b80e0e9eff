import CodeNav.Proofs.Server.Documents
import CodeNav.Proofs.Server.Letters

/-!
# What a server is told, and when

A server is greeted first, and told nothing but to exit before it has answered. That the handshake is
over is confirmed to it once, before it is told the text of any document. Callers see to the last
point: they open no document of a session before somebody has taken on the confirmation. Nothing of
this holds when messages get lost, so the server has to take all of them, and nobody may give up who
waits with one.

## Main definitions

* `SessionWorld.Steady`: steps with which no message gets lost and no document is opened too early
* `Session.Polite`: the messages that a server was written come in the right order
* `Session.Gated`: what is asked of a session that does not run is refused

## Main statements

* `SessionWorld.Courteous.step`: the steps keep the messages in order
* `SessionWorld.courteous_of_run`: they do so in every run
* `SessionWorld.Courteous.polite`: then the messages are in the right order
* `Session.gated`: no call gets past the gate
-/

namespace CodeNav

namespace Handshake

/-- Whether a handshake is over and has gone well. -/
def isWell : Handshake → Bool
  | ended (.ok ()) => true
  | _ => false

end Handshake

namespace Session

variable {s s' : Session} {now : Nat} {phase phase' : SessionPhase}

/-! ### What a server may rely on -/

/-- The messages to the server, but for answers to what it has asked itself. -/
def letters (s : Session) : List Json :=
  s.post.written.filter fun m ↦ MessageKind.of m ≠ .answer

/-- The messages that a server was written come in the right order. -/
structure Polite (s : Session) : Prop where
  /-- The first message, and no other, asks the server to initialize. -/
  begins : s.letters = [] ∨ ∃ first later, s.letters = first :: later ∧
    MessageKind.of first = .greeting ∧ ∀ m ∈ later, MessageKind.of m ≠ .greeting
  /-- Until the handshake has gone well, the server is told nothing else but to exit. -/
  quiet : s.handshake ≠ .ended (.ok ()) → ∀ m ∈ s.letters.tail, MessageKind.of m = .farewell
  /-- The server is told once at most that the handshake is over. -/
  once : s.letters.countP (MessageKind.of · = .confirmation) ≤ 1
  /-- Whatever tells the text of a document comes after that. -/
  told : ∀ before m after uri, s.letters = before ++ m :: after → MessageKind.of m = .text uri →
    ∃ c ∈ before, MessageKind.of c = .confirmation

/-! ### What calls leave alone -/

theorem Begins.initializedSent {what : SessionCall} {b : SessionPhase ⊕ SessionResult}
    (h : Begins s what b s') (hb : ∀ note, b ≠ .inl (.telling note)) :
    s'.initializedSent = s.initializedSent := by
  cases h with
  | tell => exact absurd rfl (hb _)
  | enter =>
    obtain ⟨documents, heq⟩ := s.observe.exists_enterSlot_eq _
    rw [heq, ← s.initializedSent_observe]
  | exit what s₀ hs₀ =>
    have hexit : s₀.beginExit.2.initializedSent = s₀.initializedSent := by
      rcases s₀.beginExit_eq with heq | ⟨c, c', note, -, -, heq⟩ <;> rw [heq]
      rfl
    rcases hs₀ with rfl | rfl
    · exact hexit
    · exact hexit.trans s.initializedSent_observe
  | start | wait => rfl
  | atOnce | ask | shut => exact s.initializedSent_observe

theorem Goes.initializedSent (h : Goes now s phase phase' s') :
    s'.initializedSent = s.initializedSent := by
  cases h <;> rfl

theorem Ends.initializedSent {r : SessionResult} (h : Ends now s phase r s') :
    s'.initializedSent = s.initializedSent := by
  cases h with
  | settled => exact s.initializedSent_observe
  | _ => rfl

/-- How far things have come with the server of a session. -/
def rapport (s : Session) : Rapport :=
  ⟨s.client.isSome, s.handshake.isWell, s.initializedSent⟩

theorem rapport_observe (s : Session) : s.observe.rapport = s.rapport := by
  simp [rapport]

/-- Only a handshake that has gone well gets a session to run. -/
def Founded (s : Session) : Prop :=
  s.state = .running → s.handshake.isWell = true

theorem Founded.beside (h : Founded s) (hs : s.Beside s') : Founded s' := by
  intro hrunning
  rw [hs.handshake]
  exact h ((hs.state_eq (by simp [hrunning])).trans hrunning)

/-- There is a server that has been greeted well when a session runs after a look at it. -/
theorem Founded.of_runningClient {c : Client} (h : Founded s) (hc : s.observe.runningClient = .ok c) :
    s.rapport.met = true ∧ s.rapport.settled = true := by
  obtain ⟨hstate, hclient⟩ := runningClient_eq_ok hc
  rw [client_observe] at hclient
  refine ⟨by simp [rapport, hclient], ?_⟩
  have hwell := (h.beside s.beside_observe) hstate
  rwa [handshake_observe] at hwell

theorem Begins.client_isSome {what : SessionCall} {b : SessionPhase ⊕ SessionResult}
    (h : Begins s what b s') : s'.client.isSome = s.client.isSome := by
  have hrunning : ∀ {c : Client}, s.observe.runningClient = .ok c → s.client.isSome = true := by
    intro c hc
    have hclient := (runningClient_eq_ok hc).2
    rw [client_observe] at hclient
    simp [hclient]
  cases h with
  | start | wait => rfl
  | atOnce => rw [client_observe]
  | tell hc | ask _ _ _ hc | shut hc => exact (hrunning hc).symm
  | enter =>
    obtain ⟨documents, heq⟩ := s.observe.exists_enterSlot_eq _
    rw [heq, ← s.client_observe]
  | exit what s₀ hs₀ =>
    have hexit : s₀.beginExit.2.client.isSome = s₀.client.isSome := by
      rcases s₀.beginExit_eq with heq | ⟨c, c', note, hclient, -, heq⟩ <;> rw [heq]
      rw [hclient]
      rfl
    rcases hs₀ with rfl | rfl
    · exact hexit
    · rw [hexit, client_observe]

/-- Whatever a call adds when it begins may be said, but for the confirmation. -/
theorem Begins.admits {what : SessionCall} {b : SessionPhase ⊕ SessionResult} (h : Begins s what b s')
    (hf : s.Founded) (hb : b = .inl phase) (htell : ∀ note, phase ≠ .telling note) {n : Note}
    (hn : phase.draft? = some n) : s.rapport.Admits (MessageKind.of n.message) := by
  have hkind := h.worded hb n hn
  rw [hkind]
  cases h with
  | start | wait | enter => obtain rfl := Sum.inl.inj hb; cases hn
  | atOnce => cases hb
  | tell => obtain rfl := Sum.inl.inj hb; exact absurd rfl (htell _)
  | ask _ _ _ hc | shut hc =>
    obtain rfl := Sum.inl.inj hb
    obtain ⟨hmet, hsettled⟩ := hf.of_runningClient hc
    exact Rapport.admits_question hmet hsettled
  | exit what s₀ hs₀ =>
    rcases s₀.beginExit_eq with heq | ⟨c, c', note, hclient, -, heq⟩
    · simp [heq] at hb
    · rw [heq] at hb
      obtain rfl := Sum.inl.inj hb
      refine Rapport.admits_farewell ?_
      rcases hs₀ with rfl | rfl
      · simp [rapport, hclient]
      · rw [client_observe] at hclient
        simp [rapport, hclient]

/-- Only the first confirmation is sent, and only to a server that has been greeted well. -/
theorem Begins.of_telling {what : SessionCall} {b : SessionPhase ⊕ SessionResult} {note : Note}
    (h : Begins s what b s') (hb : b = .inl (.telling note)) :
    (∃ c, s.observe.runningClient = .ok c) ∧ s.initializedSent = false ∧
      s'.initializedSent = true ∧ what = .initialized ∧
        note.message = Client.noteMessage "initialized" (.object []) := by
  cases h with
  | tell hrunning hsent hstart =>
    obtain rfl := SessionPhase.telling.inj (Sum.inl.inj hb)
    exact ⟨⟨_, hrunning⟩, hsent, rfl, rfl, (Note.moves_start hstart).2⟩
  | exit what s₀ =>
    rcases s₀.beginExit_eq with heq | ⟨c, c', note, -, -, heq⟩ <;> simp [heq] at hb
  | start | wait | atOnce | enter | ask | shut => simp at hb

/-- Only who opens a document of a session that runs queues up for one. -/
theorem Begins.of_seat? {what : SessionCall} {b : SessionPhase ⊕ SessionResult}
    (h : Begins s what b s') (hb : b = .inl phase) (hseat : phase.seat?.isSome = true) :
    (∃ c, s.observe.runningClient = .ok c) ∧ ∃ path text, what = .didOpen path text := by
  cases h with
  | enter hrunning => exact ⟨⟨_, hrunning⟩, _, _, rfl⟩
  | exit what s₀ =>
    rcases s₀.beginExit_eq with heq | ⟨c, c', note, -, -, heq⟩
    · simp [heq] at hb
    · rw [heq] at hb
      obtain rfl := Sum.inl.inj hb
      cases hseat
  | start | wait | tell | ask | shut => obtain rfl := Sum.inl.inj hb; cases hseat
  | atOnce => cases hb

theorem Goes.rapport (h : Goes now s phase phase' s') : s'.rapport = s.rapport := by
  cases h with
  | send hholder hclient | await question hclient | awaitShutdown hclient | exit hclient =>
    simp [Session.rapport, hclient, withClient]

theorem Goes.admits (h : Goes now s phase phase' s')
    (hopening : phase.seat?.isSome = true → s.rapport = ⟨true, true, true⟩) {n : Note}
    (hn : phase'.draft? = some n) : s.rapport.Admits (MessageKind.of n.message) := by
  have hkind := h.worded n hn
  rw [hkind]
  cases h with
  | send =>
    rw [hopening rfl]
    exact Rapport.admits_text _ rfl rfl rfl
  | await question hclient hturn | awaitShutdown hclient hturn =>
    rw [SessionPhase.draft?, (ServerCall.moves_moved hturn).2.1] at hn
    cases hn
  | exit hclient => exact Rapport.admits_farewell (by simp [Session.rapport, hclient])

theorem Ends.rapport {r : SessionResult} (h : Ends now s phase r s') : s'.rapport = s.rapport := by
  cases h with
  | settled => exact s.rapport_observe
  | shaken | known | refused => rfl
  | told hclient | sent hclient | failed hclient | answered _ hclient | shut hclient
  | exited hclient => simp [Session.rapport, hclient, withClient, remember, leaveSlot, changeSlot]

theorem rapport_drop (phase : SessionPhase) (s : Session) : (drop phase s).rapport = s.rapport := by
  cases phase <;> simp [rapport, drop, leaveSlot, changeSlot]

end Session

namespace SessionWorld

variable {w w' : SessionWorld} {e : SessionEvent} {t : List SessionEvent} {key : RepositoryKey}
  {checkout : Path} {options : SessionOptions}

/-- Only who takes on the confirmation of the handshake has it taken for sent. -/
theorem Step.initializedSent (h : Step w e w') :
    w'.session.initializedSent = w.session.initializedSent ∨
      w'.session.initializedSent = true ∧ ∃ n state, e = .began n .initialized state none := by
  cases h with
  | begin what =>
    have hbegins := w.session.begins_begin what
    by_cases htell : ∃ note, (Session.begin what w.session).1 = .inl (.telling note)
    · obtain ⟨note, hnote⟩ := htell
      obtain ⟨-, -, hsent, rfl, -⟩ := hbegins.of_telling hnote
      exact Or.inr ⟨hsent, _, _, by rw [hnote]; rfl⟩
    · exact Or.inl (hbegins.initializedSent fun note hnote ↦ htell ⟨note, hnote⟩)
  | turn fs hn hturn => exact Or.inl (Session.goes_of_turn hturn).initializedSent
  | finish fs hn hturn => exact Or.inl (Session.ends_of_turn hturn).initializedSent
  | drop hn => exact Or.inl (congrArg Rapport.confirmed (Session.rapport_drop _ _))
  | observe => exact Or.inl (congrArg Rapport.confirmed (Session.rapport_observe _))
  | launched started =>
    rcases w.session.launched_cases started with ⟨e, heq⟩ | ⟨call, c, n, heq, -⟩ <;>
      exact Or.inl (by simp only [heq]; rfl)
  | shake hturn =>
    obtain ⟨call, call', c, c', -, -, -, -, rfl⟩ := Session.handshakeTurn_eq_moved hturn
    exact Or.inl rfl
  | shaken hturn =>
    obtain ⟨call, c, c', r, -, -, -, -, rfl⟩ := Session.handshakeTurn_eq_finished hturn
    cases r with
    | error e => exact Or.inl rfl
    | ok answer =>
      simp only [Session.handshakeAnswered]
      split <;> exact Or.inl rfl
  | launch | read | serve | pass => exact Or.inl rfl

/-- The messages that calls wait to write. -/
def callDrafts (calls : List SessionEntry) : List Note :=
  calls.filterMap fun c ↦ c.phase.bind SessionPhase.draft?

/-- All messages that wait. -/
def drafts (w : SessionWorld) : List Note :=
  w.session.handshake.draft?.toList ++ (w.session.reply?.toList ++ callDrafts w.calls)

/-- A step with which no message gets lost, and no document is opened before somebody has taken on the
confirmation of the handshake. -/
structure Steady (w : SessionWorld) (e : SessionEvent) (w' : SessionWorld) : Prop where
  step : Step w e w'
  accepts : w.session.post.accepts = true → w'.session.post.accepts = true
  dropped : ∀ n what phase, e = .dropped n → w.calls[n]? = some ⟨what, some phase⟩ →
    phase.draft? = none
  opened : ∀ n path text state r, e = .began n (.didOpen path text) state r →
    w.session.initializedSent = true

/-- All that the order of messages depends on. -/
structure Courteous (w : SessionWorld) : Prop where
  founded : w.session.Founded
  opening : ∀ (n : Nat) what phase, w.calls[n]? = some ⟨what, some phase⟩ →
    phase.seat?.isSome = true → w.session.rapport = ⟨true, true, true⟩
  post : ∃ waiting, w.session.post.Courteous w.session.rapport w.drafts waiting

theorem callDrafts_concat (calls : List SessionEntry) (what : SessionCall)
    (phase : Option SessionPhase) :
    (callDrafts (calls ++ [⟨what, phase⟩])).Perm
      ((phase.bind SessionPhase.draft?).toList ++ callDrafts calls) := by
  rw [callDrafts, List.filterMap_append]
  refine (List.perm_append_comm ..).trans (.append_right _ ?_)
  cases h : phase.bind SessionPhase.draft? <;> simp [h]

/-- The messages that wait, when a call goes on. -/
theorem drafts_set {n : Nat} {what : SessionCall} {phase : SessionPhase} {s : Session}
    {launching : Option LaunchSpec} {now : Nat} (hn : w.calls[n]? = some ⟨what, some phase⟩)
    (hhandshake : s.handshake = w.session.handshake) (hreply : s.reply? = w.session.reply?) :
    ∃ rest, w.drafts.Perm (phase.draft?.toList ++ rest) ∧ ∀ phase',
      (drafts ⟨s, w.calls.set n ⟨what, phase'⟩, launching, now⟩).Perm
        ((phase'.bind SessionPhase.draft?).toList ++ rest) := by
  obtain ⟨rest, hbefore, hafter⟩ :=
    perm_filterMap_set (fun c : SessionEntry ↦ c.phase.bind SessionPhase.draft?) hn
  have hmove : ∀ a b c d : List Note, d.Perm (c ++ rest) →
      (a ++ (b ++ d)).Perm (c ++ (a ++ (b ++ rest))) := by
    intro a b c d hd
    refine ((hd.append_left b).append_left a).trans ?_
    refine ((List.perm_append_comm_assoc b c rest).append_left a).trans ?_
    exact List.perm_append_comm_assoc a c (b ++ rest)
  refine ⟨w.session.handshake.draft?.toList ++ (w.session.reply?.toList ++ rest), ?_, fun phase' ↦ ?_⟩
  · exact hmove _ _ _ _ hbefore
  · rw [drafts, hhandshake, hreply]
    exact hmove _ _ _ _ (hafter ⟨what, phase'⟩)

/-- A call that begins leaves the message of the handshake as it is. -/
theorem draft?_handshake_begin_eq (h : w.Phased) (what : SessionCall) :
    (Session.begin what w.session).2.handshake.draft? = w.session.handshake.draft? ∧
      (Session.begin what w.session).2.handshake.isWell = w.session.handshake.isWell := by
  by_cases hstart : ∃ context, what = .start context ∧ w.session.state = .created
  · obtain ⟨context, rfl, hcreated⟩ := hstart
    rw [Session.begin_start context hcreated]
    have hbegun := h.created hcreated
    cases hhandshake : w.session.handshake with
    | notBegun => exact ⟨rfl, rfl⟩
    | launching | asking | ended => rw [hhandshake] at hbegun; cases hbegun
  · rw [(w.session.beside_begin fun context hwhat hcreated ↦ hstart ⟨context, hwhat, hcreated⟩).handshake]
    exact ⟨rfl, rfl⟩

/-- The messages that wait, when a call begins. -/
theorem drafts_begin {s : Session} {b : SessionPhase ⊕ SessionResult} (what : SessionCall)
    (hdraft : s.handshake.draft? = w.session.handshake.draft?) (hreply : s.reply? = w.session.reply?) :
    (drafts { w with session := s, calls := w.calls ++ [⟨what, phaseOf b⟩] }).Perm
      (((phaseOf b).bind SessionPhase.draft?).toList ++ w.drafts) := by
  simp only [drafts, hdraft, hreply]
  refine (((callDrafts_concat w.calls what (phaseOf b)).append_left _).append_left _).trans ?_
  refine (List.Perm.append_left _ (List.perm_append_comm_assoc ..)).trans ?_
  exact List.perm_append_comm_assoc ..

namespace Courteous

theorem create : Courteous (create key checkout options) :=
  ⟨nofun, fun _ _ _ hn ↦ absurd hn (by simp [SessionWorld.create]),
    [], Post.lined_fresh, rfl, .nil, nofun⟩

/-- A call has gone on or is over. -/
theorem set (h : w.Courteous) {n : Nat} {what : SessionCall} {phase : SessionPhase} {s : Session}
    {launching : Option LaunchSpec} {now : Nat} {phase' : Option SessionPhase}
    (hn : w.calls[n]? = some ⟨what, some phase⟩) (hs : w.session.Beside s)
    (hreply : s.reply? = w.session.reply?) (hrapport : s.rapport = w.session.rapport)
    (hseat : ∀ p, phase' = some p → p.seat?.isSome = true → phase.seat?.isSome = true)
    (hmoves : ∃ p, w.session.post.Moves phase.draft? none p ∧
      p.Moves none (phase'.bind SessionPhase.draft?) s.post)
    (hadmits : ∀ n, phase'.bind SessionPhase.draft? = some n →
      w.session.rapport.Admits (MessageKind.of n.message)) :
    Courteous ⟨s, w.calls.set n ⟨what, phase'⟩, launching, now⟩ := by
  obtain ⟨waiting, hpost⟩ := h.post
  obtain ⟨rest, hbefore, hafter⟩ : ∃ rest, w.drafts.Perm (phase.draft?.toList ++ rest) ∧
      ∀ phase', (drafts ⟨s, w.calls.set n ⟨what, phase'⟩, launching, now⟩).Perm
        ((phase'.bind SessionPhase.draft?).toList ++ rest) := drafts_set hn hs.handshake hreply
  obtain ⟨p, hfirst, hsecond⟩ := hmoves
  refine ⟨h.founded.beside hs, fun m what' p hm hp ↦ ?_, ?_⟩
  · change s.rapport = _
    rw [hrapport]
    rcases (getElem?_set_eq_some hn).mp hm with ⟨-, heq⟩ | ⟨-, hm⟩
    · exact h.opening n what phase hn (hseat p (SessionEntry.mk.inj heq).2.symm hp)
    · exact h.opening m what' p hm hp
  · change ∃ waiting, s.post.Courteous s.rapport _ waiting
    rw [hrapport]
    obtain ⟨waiting₁, h₁⟩ := (hpost.of_perm hbefore).moves hfirst (by simp)
    obtain ⟨waiting₂, h₂⟩ := h₁.moves hsecond fun n _ hn _ ↦ hadmits n hn
    exact ⟨waiting₂, h₂.of_perm (hafter phase').symm⟩

/-- A call that begins leaves the handshake as it is, or starts it. -/
theorem handshake_begin (h : w.Courteous) (hphased : w.Phased) (what : SessionCall) :
    (Session.begin what w.session).2.Founded ∧
      (Session.begin what w.session).2.handshake.draft? = w.session.handshake.draft? ∧
      (Session.begin what w.session).2.handshake.isWell = w.session.handshake.isWell := by
  refine ⟨?_, draft?_handshake_begin_eq hphased what⟩
  by_cases hstart : ∃ context, what = .start context ∧ w.session.state = .created
  · obtain ⟨context, rfl, hcreated⟩ := hstart
    rw [Session.begin_start context hcreated]
    exact nofun
  · exact h.founded.beside (w.session.beside_begin fun context hwhat hcreated ↦
      hstart ⟨context, hwhat, hcreated⟩)

/-- A call begins. -/
theorem begin (h : w.Courteous) (hphased : w.Phased) (what : SessionCall)
    (hopened : ∀ path text, what = .didOpen path text → w.session.initializedSent = true) :
    Courteous
      { w with
        session := (Session.begin what w.session).2
        calls := w.calls ++ [⟨what, phaseOf (Session.begin what w.session).1⟩] } := by
  obtain ⟨hfounded, hdraft, hwell⟩ := h.handshake_begin hphased what
  have hbegins := w.session.begins_begin what
  generalize (Session.begin what w.session).1 = b at *
  generalize (Session.begin what w.session).2 = s at *
  obtain ⟨waiting, hpost⟩ := h.post
  obtain ⟨hmoves, hreply⟩ := hbegins.moves
  have hdrafts : ((phaseOf b).bind SessionPhase.draft?).toList ++ w.drafts |>.Perm
      (drafts { w with session := s, calls := w.calls ++ [⟨what, phaseOf b⟩] }) :=
    (drafts_begin what hdraft hreply).symm
  have hclient := hbegins.client_isSome
  by_cases htell : ∃ note, b = .inl (.telling note)
  · obtain ⟨note, rfl⟩ := htell
    have hkind := hbegins.worded rfl note rfl
    obtain ⟨⟨c, hrunning⟩, hsent, hconfirmed, -⟩ := hbegins.of_telling rfl
    obtain ⟨hmet, hsettled⟩ := h.founded.of_runningClient hrunning
    obtain ⟨waiting', hpost'⟩ := hpost.confirm hmoves hkind hmet hsettled hsent
    have hrapport : s.rapport = { w.session.rapport with confirmed := true } := by
      simp only [Session.rapport, hclient, hwell, hconfirmed]
    refine ⟨hfounded, fun m what' p hm hp ↦ ?_, waiting', hrapport ▸ hpost'.of_perm hdrafts⟩
    rcases getElem?_concat_eq_some.mp hm with hm | ⟨-, heq⟩
    · -- Nobody has opened a document before the confirmation.
      have hopening := h.opening m what' p hm hp
      exact absurd (hsent.symm.trans (congrArg Rapport.confirmed hopening)) nofun
    · obtain rfl := Option.some.inj (SessionEntry.mk.inj heq).2
      cases hp
  · have hsame : s.rapport = w.session.rapport := by
      simp only [Session.rapport, hclient, hwell,
        hbegins.initializedSent fun note hnote ↦ htell ⟨note, hnote⟩]
    obtain ⟨waiting', hpost'⟩ := Post.Courteous.moves (d := none) hpost hmoves fun n _ hn _ ↦ by
      cases b with
      | inl phase =>
        exact hbegins.admits h.founded rfl (fun note hnote ↦ htell ⟨note, by rw [hnote]⟩) hn
      | inr r => cases hn
    refine ⟨hfounded, fun m what' p hm hp ↦ hsame.trans ?_, waiting', hsame ▸ hpost'.of_perm hdrafts⟩
    rcases getElem?_concat_eq_some.mp hm with hm | ⟨-, heq⟩
    · exact h.opening m what' p hm hp
    · obtain ⟨rfl, hphase⟩ := SessionEntry.mk.inj heq
      obtain rfl : b = .inl p := by
        cases b with
        | inl phase => rw [Option.some.inj hphase]
        | inr r => cases hphase
      obtain ⟨⟨c, hrunning⟩, path, text, hwhat⟩ := hbegins.of_seat? rfl hp
      obtain ⟨hmet, hsettled⟩ := h.founded.of_runningClient hrunning
      exact congr (congr (congrArg Rapport.mk hmet) hsettled) (hopened path text hwhat)

/-- No document is opened before the handshake has gone well. -/
theorem not_opening (h : w.Courteous) (hwell : w.session.handshake.isWell = false) (n : Nat)
    (what : SessionCall) (phase : SessionPhase) (hn : w.calls[n]? = some ⟨what, some phase⟩) :
    phase.seat?.isSome = false := by
  by_contra hseat
  have hopening := h.opening n what phase hn (Bool.not_eq_false _ ▸ hseat)
  exact absurd (hwell.symm.trans (congrArg Rapport.settled hopening)) nofun

/-- The handshake goes on, or is over. -/
theorem shake (h : w.Courteous) {s : Session} {r : Unit}
    (hturn : w.session.handshakeTurn w.now = .moved r s ∨
      w.session.handshakeTurn w.now = .finished r s) : Courteous { w with session := s } := by
  obtain ⟨hmoves, hdraft, hreply⟩ := Session.moves_handshakeTurn hturn
  obtain ⟨waiting, hpost⟩ := h.post
  obtain ⟨waiting', hpost'⟩ := hpost.moves hmoves (by simp)
  have hdrafts : drafts { w with session := s } =
      (none : Option Note).toList ++ (w.session.reply?.toList ++ callDrafts w.calls) := by
    simp only [drafts, hdraft, hreply]
  obtain ⟨hwell, hclient, hsent, hstate⟩ : w.session.handshake.isWell = false ∧
      s.client.isSome = w.session.client.isSome ∧ s.initializedSent = w.session.initializedSent ∧
      (s.handshake.isWell = true ∨ s.state ≠ .running) := by
    have hrunning : ∀ call, w.session.handshake = .asking call → w.session.state ≠ .running := by
      intro call hcall hrunning
      have hwell := h.founded hrunning
      rw [hcall] at hwell
      cases hwell
    rcases hturn with hturn | hturn
    · obtain ⟨call, call', c, c', hcall, hclient, -, -, rfl⟩ := Session.handshakeTurn_eq_moved hturn
      exact ⟨by rw [hcall]; rfl, by rw [hclient]; rfl, rfl, Or.inr (hrunning call hcall)⟩
    · obtain ⟨call, c, c', r', hcall, hclient, -, -, rfl⟩ :=
        Session.handshakeTurn_eq_finished hturn
      refine ⟨by rw [hcall]; rfl, ?_⟩
      rw [hclient]
      cases r' with
      | error e => exact ⟨rfl, rfl, Or.inr nofun⟩
      | ok answer =>
        simp only [Session.handshakeAnswered]
        split
        · exact ⟨rfl, rfl, Or.inl rfl⟩
        · exact ⟨rfl, rfl, Or.inr (hrunning call hcall)⟩
  refine ⟨fun hrunning ↦ hstate.resolve_right (· hrunning), fun n what phase hn hseat ↦ ?_, waiting', ?_⟩
  · exact absurd (h.not_opening hwell n what phase hn) (by simp [hseat])
  · rw [hdrafts]
    have hrapport : s.rapport = { w.session.rapport with settled := s.handshake.isWell } := by
      simp only [Session.rapport, hclient, hsent]
    change s.post.Courteous s.rapport _ _
    rw [hrapport]
    cases hafter : s.handshake.isWell with
    | true => exact hpost'.settle
    | false =>
      rw [← hwell]
      exact hpost'

/-- The server was started and is greeted, or could not be started. -/
theorem launched (h : w.Courteous) (started : Except SessionError Unit) {spec : LaunchSpec}
    (hspec : w.session.handshake = .launching spec) (hclient : w.session.client = none) :
    Courteous { w with session := w.session.launched started, launching := none } := by
  obtain ⟨waiting, hpost⟩ := h.post
  have hwell : w.session.handshake.isWell = false := by rw [hspec]; rfl
  have hstate : w.session.state ≠ .running := fun hrunning ↦ by
    simp [h.founded hrunning] at hwell
  have hopening : ∀ (r : Rapport) (n : Nat) what phase, w.calls[n]? = some ⟨what, some phase⟩ →
      phase.seat?.isSome = true → r = ⟨true, true, true⟩ := fun r n what phase hn hseat ↦
    absurd (h.not_opening hwell n what phase hn) (by simp [hseat])
  have hreply : w.session.reply? = none := by simp [Session.reply?, hclient]
  have hdrafts : w.drafts = callDrafts w.calls := by
    simp [drafts, hspec, Handshake.draft?, hreply]
  rw [hdrafts] at hpost
  rcases w.session.launched_cases started with ⟨e, heq⟩ | ⟨call, c, n, heq, hn, hmoves, hkind, hdraft⟩
  · rw [heq]
    refine ⟨fun hrunning ↦ (by cases hrunning), hopening _, waiting, ?_⟩
    have hsame : drafts { w with session := w.session.handshakeFailed e, launching := none } =
        callDrafts w.calls := by
      change _ ++ (w.session.reply?.toList ++ _) = _
      rw [hreply]
      rfl
    rw [hsame]
    have hrapport : (w.session.handshakeFailed e).rapport = w.session.rapport := by
      simp only [Session.rapport, hwell]
      rfl
    change w.session.post.Courteous (w.session.handshakeFailed e).rapport _ _
    rw [hrapport]
    exact hpost
  · rw [heq]
    have hfresh : w.session.post = .fresh := by simp [Session.post, hclient]
    rw [hfresh] at hpost
    obtain ⟨waiting', hpost'⟩ := hpost.greet hmoves hkind
    refine ⟨fun hrunning ↦ absurd hrunning hstate, hopening _, waiting', ?_⟩
    have hsame : drafts { w with
        session := { w.session.withClient c with handshake := .asking call }, launching := none } =
        n :: callDrafts w.calls := by
      change call.draft?.toList ++ (c.draft?.toList ++ _) = _
      rw [hn, hdraft]
      rfl
    rw [hsame]
    have hrapport : Session.rapport { w.session.withClient c with handshake := .asking call } =
        { w.session.rapport with met := true } := by
      simp only [Session.rapport, hwell]
      rfl
    change c.post.Courteous (Session.rapport _) _ _
    rw [hrapport]
    exact hpost'

/-- The reader takes a message of the server, or answers one. -/
theorem read (h : w.Courteous) (hspoken : w.Spoken) {c c' : Client}
    (hclient : w.session.client = some c) (hread : c.readerTurn = some c') :
    Courteous { w with session := w.session.withClient c' } := by
  obtain ⟨waiting, hpost⟩ := h.post
  have hrapport : (w.session.withClient c').rapport = w.session.rapport := by
    simp [Session.rapport, Session.withClient, hclient]
  obtain ⟨hmoves, hkinds⟩ := Client.moves_readerTurn hread
  rw [← Session.post_of_client hclient, ← Session.reply?_of_client hclient] at hmoves
  rw [← Session.reply?_of_client hclient] at hkinds
  have hcomm : ∀ reply : Option Note,
      (w.session.handshake.draft?.toList ++ (reply.toList ++ callDrafts w.calls)).Perm
        (reply.toList ++ (w.session.handshake.draft?.toList ++ callDrafts w.calls)) :=
    fun reply ↦ List.perm_append_comm_assoc ..
  -- What the reader waits to write answers the server, and does not count.
  obtain ⟨waiting', hpost'⟩ := (hpost.of_perm (hcomm _)).moves hmoves fun n _ hn hanswer ↦
    absurd (hkinds hspoken.reply n hn) hanswer
  refine ⟨h.founded, fun n what phase hn hseat ↦ hrapport.trans (h.opening n what phase hn hseat),
    waiting', ?_⟩
  change c'.post.Courteous (w.session.withClient c').rapport _ _
  rw [hrapport]
  exact hpost'.of_perm (hcomm c'.draft?).symm

/-- Every steady step keeps the messages in order. -/
theorem step (h : w.Courteous) (hphased : w.Phased) (hspoken : w.Spoken)
    (hstep : Steady w e w') : w'.Courteous := by
  obtain ⟨hstep, haccepts, hdropped, hopened⟩ := hstep
  cases hstep with
  | begin what => exact h.begin hphased what fun path text hwhat ↦ hopened _ path text _ _ (by rw [hwhat])
  | @turn n what phase phase' s fs hn hturn =>
    have hgoes := Session.goes_of_turn hturn
    have hbeside := (w.session.leads_turn fs w.now phase).moved hturn
    have hseat : ∀ p, some phase' = some p → p.seat?.isSome = true → phase.seat?.isSome = true := by
      rintro p ⟨⟩ hp
      cases hgoes with
      | send => rfl
      | await | awaitShutdown | exit => cases hp
    exact h.set hn hbeside hgoes.moves.2 hgoes.rapport hseat hgoes.moves.1
      fun n hdraft ↦ hgoes.admits (h.opening _ _ _ hn) hdraft
  | @finish n what phase r s fs hn hturn =>
    have hends := Session.ends_of_turn hturn
    have hbeside := (w.session.leads_turn fs w.now phase).finished hturn
    exact h.set hn hbeside hends.moves.2 hends.rapport nofun ⟨_, hends.moves.1, .stay none⟩ nofun
  | @drop n what phase hn =>
    have hdraft := hdropped n what phase rfl hn
    obtain ⟨hpost, hreply⟩ := Session.post_drop phase w.session
    rw [hdraft] at hpost
    refine h.set hn (w.session.beside_drop phase) hreply (Session.rapport_drop phase _) nofun ?_ nofun
    rw [hdraft, hpost]
    exact ⟨_, .stay none, .stay none⟩
  | observe =>
    obtain ⟨waiting, hpost⟩ := h.post
    refine ⟨h.founded.beside w.session.beside_observe, fun n what phase hn hseat ↦ ?_, waiting, ?_⟩
    · exact w.session.rapport_observe.trans (h.opening n what phase hn hseat)
    · change w.session.observe.post.Courteous w.session.observe.rapport
        (w.session.observe.handshake.draft?.toList ++
          (w.session.observe.reply?.toList ++ callDrafts w.calls)) waiting
      rw [Session.post_observe, Session.rapport_observe, Session.handshake_observe,
        Session.reply?_observe]
      exact hpost
  | launch => exact ⟨h.founded, h.opening, h.post⟩
  | launched started hspec => exact h.launched started hspec (hphased.launching _ hspec)
  | shake hturn => exact h.shake (Or.inl hturn)
  | shaken hturn => exact h.shake (Or.inr hturn)
  | read hclient hread => exact h.read hspoken hclient hread
  | @serve c bytes accepts ended hclient =>
    obtain ⟨waiting, hpost⟩ := h.post
    have hsame : Client.post { c with wire := c.wire.serve bytes accepts ended } = c.post := by
      have haccepts' := haccepts hpost.accepts
      have hbefore := hpost.accepts
      rw [Session.post_of_client hclient] at hbefore
      change (Client.post { c with wire := c.wire.serve bytes accepts ended }).accepts = true
        at haccepts'
      have hsame : (c.wire.serve bytes accepts ended).accepts = c.wire.accepts :=
        haccepts'.trans hbefore.symm
      simp only [Client.post, hsame]
      rfl
    have hrapport : (w.session.withClient
        { c with wire := c.wire.serve bytes accepts ended }).rapport = w.session.rapport := by
      simp [Session.rapport, Session.withClient, hclient]
    refine ⟨h.founded, fun n what phase hn hseat ↦ hrapport.trans (h.opening n what phase hn hseat),
      waiting, ?_⟩
    change (Client.post { c with wire := c.wire.serve bytes accepts ended }).Courteous
      (Session.rapport _) (_ ++ (c.draft?.toList ++ _)) waiting
    rw [hrapport, hsame, ← Session.post_of_client hclient, ← Session.reply?_of_client hclient]
    exact hpost
  | pass => exact ⟨h.founded, h.opening, h.post⟩

end Courteous

variable (key checkout options) in
/-- What is true after every run of steady steps. -/
theorem courteous_of_run (h : Run Steady (create key checkout options) t w) :
    w.Courteous ∧ Run Step (create key checkout options) t w := by
  have hrun := h.mono fun _ _ _ hstep ↦ hstep.step
  refine ⟨h.invariant (P := fun _ w ↦ w.Courteous) .create ?_, hrun⟩
  intro t u e v hu hcourteous hstep
  have hrun := hu.mono fun _ _ _ hstep ↦ hstep.step
  exact hcourteous.step (lived_of_run hrun).phased (spoken_of_run hrun) hstep

/-- Messages that are in order, with those that wait, are in order as far as they were written. -/
theorem Courteous.polite (h : w.Courteous) : w.session.Polite := by
  obtain ⟨waiting, hpost⟩ := h.post
  have horder := hpost.inOrder
  have hkinds : w.session.post.kinds waiting = w.session.letters.map MessageKind.of ++
      ((waiting.map Note.message).map MessageKind.of).filter (· ≠ .answer) := by
    rw [Post.kinds, Post.letters, List.map_append, List.filter_append, List.filter_map]
    rfl
  generalize ((waiting.map Note.message).map MessageKind.of).filter (· ≠ .answer) = more at hkinds
  rw [hkinds] at horder
  refine ⟨?_, fun hended m hm ↦ ?_, ?_, fun before m after uri heq hm ↦ ?_⟩
  · cases hletters : w.session.letters with
    | nil => exact Or.inl rfl
    | cons first later =>
      rw [hletters] at horder
      obtain ⟨rest, hrest, hgreeting⟩ := horder.greeted.resolve_left (List.cons_ne_nil _ _)
      obtain ⟨hfirst, rfl⟩ := List.cons.inj hrest
      refine Or.inr ⟨first, later, rfl, hfirst, fun m hm heq ↦ hgreeting ?_⟩
      exact List.mem_append_left _ (List.mem_map.mpr ⟨m, hm, heq⟩)
  · have hwell : w.session.handshake.isWell = false := by
      cases hhandshake : w.session.handshake with
      | ended r =>
        cases r with
        | error e => rfl
        | ok _ => exact absurd hhandshake hended
      | _ => rfl
    refine horder.quiet hwell _ ?_
    cases hletters : w.session.letters with
    | nil => simp [hletters] at hm
    | cons first later =>
      rw [hletters] at hm
      exact List.mem_append_left _ (List.mem_map.mpr ⟨m, hm, rfl⟩)
  · have honce := horder.once
    rw [List.count_append, List.count, List.countP_map] at honce
    have hle := Bool.toNat_le w.session.rapport.confirmed
    refine Nat.le_trans (Nat.le_of_eq (List.countP_congr fun m _ ↦ ?_))
      (Nat.le_trans (Nat.le_add_right _ _) (Nat.le_trans honce hle))
    simp
  · rw [heq] at horder
    have hsplit : (before ++ m :: after).map MessageKind.of ++ more =
        before.map MessageKind.of ++ MessageKind.of m :: (after.map MessageKind.of ++ more) := by simp
    have hmem := horder.told _ _ _ hsplit (by rw [hm]; rfl)
    obtain ⟨c, hc, hkind⟩ := List.mem_map.mp hmem
    exact ⟨c, hc, hkind⟩

end SessionWorld

/-! ### The gate -/

namespace Session

variable {s : Session}

/-- What is asked of a session that does not run is refused, and nobody is told. -/
def Gated (s : Session) : Prop :=
  ∀ what : SessionCall, (∀ context, what ≠ .start context) → what ≠ .ready → what ≠ .exit →
    what ≠ .close → s.observe.state ≠ .running →
    ∃ e, (e = .closed ∨ e = .notRunning s.observe.state) ∧
      begin what s = (.inr (.error e), s.observe) ∧ s.observe.post = s.post

theorem runningClient_of_ne (h : s.state ≠ .running) :
    ∃ e, (e = .closed ∨ e = .notRunning s.state) ∧ s.runningClient = .error e := by
  cases hstate : s.state with
  | running => exact absurd hstate h
  | closed => exact ⟨_, Or.inl rfl, by simp [runningClient, hstate]⟩
  | created | initializing => exact ⟨_, Or.inr rfl, by simp [runningClient, hstate]⟩

/-- No call gets past the gate, but for those that start a session, wait for it or end it. -/
theorem gated (s : Session) : s.Gated := by
  intro what hstart hready hexit hclose hstate
  obtain ⟨e, he, hrefused⟩ := runningClient_of_ne hstate
  refine ⟨e, he, ?_, s.post_observe⟩
  cases what with
  | start context => exact absurd rfl (hstart context)
  | ready => exact absurd rfl hready
  | exit => exact absurd rfl hexit
  | close => exact absurd rfl hclose
  | initialized | didOpen | shutdown => simp only [begin, hrefused]
  | symbols | place => simp only [begin, askAbout, hrefused]

end Session

end CodeNav
