import CodeNav.Proofs.Server.Confirmations
import CodeNav.Proofs.Server.Texts

/-!
# What a session remembers

A session remembers which text of each document the server was told last, and that some call has taken on to
confirm the handshake. The first is remembered when a text has been written, so that a call which fails or is
given up leaves the documents as they were, and a document that the server was never told is opened the next
time. The second is remembered before the confirmation is written. A call that fails to write it, or is given
up, therefore leaves a session in which later calls succeed and write nothing.

## Main definitions

* `Post.Shifts`: what a step does to the post and to those who wait
* `SessionWorld.Introduced`: the server was told to open a document
* `SessionWorld.Ahead`, `SessionWorld.Forgotten`: the confirmation waits to be written, or never will be
* `SessionWorld.Bookkept`: what callers may rely on

## Main statements

* `SessionWorld.lined_of_run`: whoever waits with a message is in the queue of the writer
* `SessionWorld.bookkept_of_run`: callers may rely on it in every run
* `SessionWorld.exists_forgotten`: a call succeeds although the confirmation is not written
-/

namespace CodeNav

namespace SessionCall

/-- Whether a call is one to confirm the handshake. -/
def confirmsHandshake : SessionCall → Bool
  | initialized => true
  | _ => false

/-- Whether a call is one to open a document. -/
def opensDocument : SessionCall → Bool
  | didOpen _ _ => true
  | _ => false

end SessionCall

/-! ### The queue of the writer -/

namespace Post

variable {p p' : Post} {drafts drafts' waiting : List Note}

/-- What a step does to the post, and to the messages that wait: one of the writers writes or queues up, or
leaves, or the server takes messages or refuses them from now on. -/
inductive Shifts (p : Post) (drafts : List Note) : Post → List Note → Prop
  | move {p₁ p' : Post} {d d₁ d' : Option Note} {rest drafts' : List Note}
      (hbefore : drafts.Perm (d.toList ++ rest)) (hfirst : p.Moves d d₁ p₁) (hsecond : p₁.Moves d₁ d' p')
      (hafter : drafts'.Perm (d'.toList ++ rest)) : Shifts p drafts p' drafts'
  | depart {n : Note} {rest drafts' : List Note} (hbefore : drafts.Perm (n :: rest))
      (hafter : drafts'.Perm rest) : Shifts p drafts (p.leave n.ticket) drafts'
  | serve (accepts : Bool) : Shifts p drafts { p with accepts := accepts } drafts

namespace Shifts

theorem refl (p : Post) (drafts : List Note) : p.Shifts drafts p drafts :=
  .serve p.accepts

/-- Those who wait stay in line. -/
theorem lined (h : p.Shifts drafts p' drafts') (hlined : p.Lined waiting drafts) :
    ∃ waiting', p'.Lined waiting' drafts' := by
  cases h with
  | move hbefore hfirst hsecond hafter =>
    obtain ⟨waiting₁, hlined₁⟩ := (hlined.of_perm hbefore).shift hfirst
    obtain ⟨waiting₂, hlined₂⟩ := hlined₁.shift hsecond
    exact ⟨waiting₂, hlined₂.of_perm hafter.symm⟩
  | depart hbefore hafter =>
    obtain ⟨waiting', hlined'⟩ := (hlined.of_perm hbefore).depart
    exact ⟨waiting', hlined'.of_perm hafter.symm⟩
  | serve => exact ⟨waiting, hlined.queue, hlined.wellFormed, hlined.perm⟩

end Shifts

end Post

namespace SessionWorld

variable {w w' u : SessionWorld} {e : SessionEvent} {t : List SessionEvent} {key : RepositoryKey}
  {checkout : Path} {options : SessionOptions}

/-- A call that has gone on or is over has moved from one message to another. -/
theorem shifts_set {n : Nat} {what : SessionCall} {phase : SessionPhase} {s : Session}
    {launching : Option LaunchSpec} {now : Nat} {phase' : Option SessionPhase} {p : Post}
    (hn : w.calls[n]? = some ⟨what, some phase⟩) (hs : w.session.Beside s)
    (hreply : s.reply? = w.session.reply?) (hfirst : w.session.post.Moves phase.draft? none p)
    (hsecond : p.Moves none (phase'.bind SessionPhase.draft?) s.post) :
    w.session.post.Shifts w.drafts s.post (drafts ⟨s, w.calls.set n ⟨what, phase'⟩, launching, now⟩) := by
  obtain ⟨rest, hbefore, hafter⟩ : ∃ rest, w.drafts.Perm (phase.draft?.toList ++ rest) ∧
      ∀ phase', (drafts ⟨s, w.calls.set n ⟨what, phase'⟩, launching, now⟩).Perm
        ((phase'.bind SessionPhase.draft?).toList ++ rest) := drafts_set hn hs.handshake hreply
  exact .move hbefore hfirst hsecond (hafter phase')

/-- What every step does to the post. -/
theorem Step.shifts (hphased : w.Phased) (hstep : Step w e w') :
    w.session.post.Shifts w.drafts w'.session.post w'.drafts := by
  cases hstep with
  | begin what =>
    obtain ⟨hmoves, hreply⟩ := (w.session.begins_begin what).moves
    exact .move (d := none) (.refl _) (.stay none) hmoves
      (drafts_begin what (draft?_handshake_begin_eq hphased what).1 hreply)
  | @turn n what phase phase' s fs hn hturn =>
    obtain ⟨⟨p, hfirst, hsecond⟩, hreply⟩ := (Session.goes_of_turn hturn).moves
    have hbeside := (w.session.leads_turn fs w.now phase).moved hturn
    exact shifts_set hn hbeside hreply hfirst hsecond
  | @finish n what phase r s fs hn hturn =>
    obtain ⟨hmoves, hreply⟩ := (Session.ends_of_turn hturn).moves
    have hbeside := (w.session.leads_turn fs w.now phase).finished hturn
    exact shifts_set hn hbeside hreply hmoves (.stay none)
  | @drop n what phase hn =>
    obtain ⟨hpost, hreply⟩ := Session.post_drop phase w.session
    have hbeside := w.session.beside_drop phase
    cases hdraft : phase.draft? with
    | none =>
      rw [hdraft] at hpost
      refine shifts_set hn hbeside hreply ?_ (.stay none)
      rw [hdraft, hpost]
      exact .stay none
    | some d =>
      rw [hdraft] at hpost
      obtain ⟨rest, hbefore, hafter⟩ : ∃ rest, w.drafts.Perm (phase.draft?.toList ++ rest) ∧
          ∀ phase', (drafts ⟨Session.drop phase w.session, w.calls.set n ⟨what, phase'⟩, w.launching,
            w.now⟩).Perm ((phase'.bind SessionPhase.draft?).toList ++ rest) :=
        drafts_set hn hbeside.handshake hreply
      rw [hdraft] at hbefore
      change w.session.post.Shifts w.drafts (Session.drop phase w.session).post _
      rw [hpost]
      exact .depart hbefore (hafter none)
  | observe =>
    have hdrafts : drafts { w with session := w.session.observe } = w.drafts := by
      simp only [drafts, Session.handshake_observe, Session.reply?_observe]
    rw [hdrafts, Session.post_observe]
    exact .refl ..
  | launch | pass => exact .refl ..
  | @launched spec started hspec =>
    obtain ⟨hmoves, hreply, -⟩ := w.session.moves_launched started (hphased.launching _ hspec)
    have hnone : w.session.reply? = none := by simp [Session.reply?, hphased.launching _ hspec]
    have hbefore : w.drafts.Perm ((none : Option Note).toList ++ callDrafts w.calls) := by
      simp [drafts, hspec, Handshake.draft?, hnone]
    exact .move hbefore (.stay none) hmoves (by simp [drafts, hreply])
  | shake hturn =>
    obtain ⟨hmoves, hdraft, hreply⟩ := Session.moves_handshakeTurn (Or.inl hturn)
    exact .move (.refl _) hmoves (.stay none) (by simp [drafts, hdraft, hreply])
  | shaken hturn =>
    obtain ⟨hmoves, hdraft, hreply⟩ := Session.moves_handshakeTurn (Or.inr hturn)
    exact .move (.refl _) hmoves (.stay none) (by simp [drafts, hdraft, hreply])
  | @read e c c' hclient hread =>
    have hmoves := (Client.moves_readerTurn hread).1
    rw [← Session.post_of_client hclient, ← Session.reply?_of_client hclient] at hmoves
    exact .move (List.perm_append_comm_assoc ..) (.stay _) hmoves (List.perm_append_comm_assoc ..)
  | @serve c bytes accepts ended hclient =>
    change w.session.post.Shifts (_ ++ (w.session.reply?.toList ++ _))
      { Client.post c with accepts := _ } (_ ++ (c.draft?.toList ++ _))
    rw [← Session.post_of_client hclient, ← Session.reply?_of_client hclient]
    exact .serve _

/-- Whoever waits with a message is in the queue of the writer. -/
theorem lined_of_run (h : Run Step (create key checkout options) t w) :
    ∃ waiting, w.session.post.Lined waiting w.drafts :=
  h.invariant (P := fun _ w ↦ ∃ waiting, w.session.post.Lined waiting w.drafts) ⟨[], Post.lined_fresh⟩
    fun _ _ _ _ hrun ⟨_, hlined⟩ hstep ↦ (hstep.shifts (lived_of_run hrun).phased).lined hlined

/-- A call that waits with a message has its ticket in the queue. -/
theorem ticket_mem_queue (h : Run Step (create key checkout options) t w) {n : Nat} {what : SessionCall}
    {phase : SessionPhase} {note : Note} (hn : w.calls[n]? = some ⟨what, some phase⟩)
    (hdraft : phase.draft? = some note) : note.ticket ∈ w.session.post.queue.queue := by
  obtain ⟨waiting, hlined⟩ := lined_of_run h
  have hmem : note ∈ callDrafts w.calls :=
    List.mem_filterMap.mpr ⟨_, List.mem_of_getElem? hn, hdraft⟩
  rw [← hlined.queue]
  exact List.mem_map_of_mem (hlined.perm.mem_iff.mpr (by simp [drafts, hmem]))

/-! ### Documents -/

/-- The message that opens a document was written. -/
def Introduced (w : SessionWorld) (uri : String) : Prop :=
  ∃ language text,
    Client.noteMessage "textDocument/didOpen" (Session.openParams uri language text) ∈ w.session.post.written

/-- Only what the server was told to open is remembered. -/
theorem introduced_of_opened (h : Followed t w) {uri : String} {known : OpenDocument}
    (hknown : (w.session.slot uri).opened = some known) : w.Introduced uri := by
  obtain ⟨language, texts, htold, -, hopened, -⟩ := h.told uri
  cases texts with
  | nil => cases hknown.symm.trans hopened
  | cons text texts =>
    refine ⟨language, text, List.mem_of_mem_filter (htold ▸ ?_ : _ ∈ w.session.told uri)⟩
    simp [conversation]

/-- What a step does to a document of which no call tells the text. -/
theorem Treats.opened (hseated : w.Seated) (h : Treats w e w') {uri : String}
    (he : ∀ n path text a, e = .returned n (.didOpen path text) (.ok a) →
      w.session.documentUri path ≠ .ok uri) :
    (w'.session.slot uri).opened = (w.session.slot uri).opened ∧ w'.session.told uri = w.session.told uri ∧
      w'.session.checkout = w.session.checkout := by
  cases h with
  | aside hs hcalls hgives => exact ⟨by rw [hs.slot], hs.told uri, hs.checkout⟩
  | enter _ _ hcheckout hslot htold => exact ⟨opened_of_lock hslot uri, htold uri, hcheckout⟩
  | send hn hs => exact ⟨by rw [hs.slot], hs.told uri, hs.checkout⟩
  | leave _ _ hcheckout hslot htold => exact ⟨opened_of_lock hslot uri, htold uri, hcheckout⟩
  | @tell w' n what told ticket opened note hn hcheckout hslot htold hcalls =>
    obtain ⟨path, language, text, rfl, huri, -⟩ := hseated.serves n what _ hn
    -- The call succeeds, so that its document is another one.
    have hother : uri ≠ told := by
      rintro rfl
      exact he n path text _ rfl huri
    exact ⟨by rw [hslot, if_neg hother], by rw [htold, if_neg hother, List.append_nil], hcheckout⟩

/-- What is remembered of a document stays the same while no call that opens it succeeds. -/
theorem opened_of_run {u : SessionWorld} {more : List SessionEvent}
    (h : Run Step (create key checkout options) t u) (hmore : Run Step u more w) {uri : String}
    (hfail : ∀ n path text a, .returned n (.didOpen path text) (.ok a) ∈ more →
      u.session.documentUri path ≠ .ok uri) :
    (w.session.slot uri).opened = (u.session.slot uri).opened ∧ w.session.told uri = u.session.told uri ∧
      w.session.checkout = u.session.checkout := by
  induction hmore with
  | nil => exact ⟨rfl, rfl, rfl⟩
  | @snoc more e v w hmore hstep ih =>
    obtain ⟨hopened, htold, hcheckout⟩ := ih fun n path text a hmem ↦
      hfail n path text a (List.mem_append_left _ hmem)
    have hrun := h.append hmore
    obtain ⟨hseated, -⟩ := followed_of_run hrun
    have htreats := hstep.treats hseated (spoken_of_run hrun) (lived_of_run hrun).phased
    have hother : ∀ n path text a, e = .returned n (.didOpen path text) (.ok a) →
        v.session.documentUri path ≠ .ok uri := fun n path text a he ↦ by
      rw [documentUri_of_checkout hcheckout]
      exact hfail n path text a (by simp [he])
    obtain ⟨hopened', htold', hcheckout'⟩ := htreats.opened hseated hother
    exact ⟨hopened'.trans hopened, htold'.trans htold, hcheckout'.trans hcheckout⟩

/-! ### The confirmation -/

/-- What is remembered of the confirmation stays the same while no call takes it on. -/
theorem initializedSent_eq_of_run {u : SessionWorld} {more : List SessionEvent} (hmore : Run Step u more w)
    (hnot : ∀ n state, .began n .initialized state none ∉ more) :
    w.session.initializedSent = u.session.initializedSent := by
  induction hmore with
  | nil => rfl
  | @snoc more e v w hmore hstep ih =>
    refine (hstep.initializedSent.resolve_right ?_).trans
      (ih fun n state hmem ↦ hnot n state (List.mem_append_left _ hmem))
    rintro ⟨-, n, state, rfl⟩
    exact hnot n state (by simp)

/-- The confirmation waits to be written. -/
def Ahead (w : SessionWorld) : Prop :=
  ∃ (n : Nat) (note : Note), w.calls[n]? = some ⟨.initialized, some (.telling note)⟩ ∧
    note.message = Session.confirmation ∧ note.ticket ∈ w.session.post.queue.queue

/-- The call that has taken on the confirmation fails to write it, or is given up. -/
def Forgotten (t : List SessionEvent) : Prop :=
  ∃ n, Failed n t

/-- What was forgotten is not written, and will not be. -/
theorem Informed.of_forgotten (h : Informed t w) (hforgotten : Forgotten t) :
    ¬ w.session.Confirmed ∧ ¬ w.Ahead := by
  obtain ⟨n, hfailed⟩ := hforgotten
  obtain ⟨state, hbegan⟩ := hfailed.mem
  obtain ⟨-, honly, hdecides⟩ := h.decides hbegan
  cases hdecides with
  | waits _ _ _ hlives => exact absurd hfailed hlives
  | decided hn hiff =>
    refine ⟨fun hconfirmed ↦ hiff.mp hconfirmed hfailed, ?_⟩
    rintro ⟨k, note, hk, -⟩
    obtain ⟨state', hbegan'⟩ := h.begun k note hk
    obtain rfl := honly k state' hbegan'
    simp [hn] at hk

/-- A confirmation that was taken on is written, or waits, or was forgotten. -/
theorem Informed.of_sent (h : Informed t w) (hrun : Run Step (SessionWorld.create key checkout options) t w)
    (hsent : w.session.initializedSent = true) : w.session.Confirmed ∨ w.Ahead ∨ Forgotten t := by
  obtain ⟨n, -, -, hdecides⟩ := h.sent hsent
  cases hdecides with
  | waits note hn =>
    obtain ⟨-, note', hnote, hmessage⟩ | ⟨hne, -⟩ := h.apt n _ _ hn
    · obtain rfl := SessionPhase.telling.inj hnote
      exact Or.inr (Or.inl ⟨n, note, hn, hmessage, ticket_mem_queue hrun hn rfl⟩)
    · exact absurd rfl hne
  | decided hn hiff =>
    by_cases hfailed : Failed n t
    · exact Or.inr (Or.inr ⟨n, hfailed⟩)
    · exact Or.inl (hiff.mpr hfailed)

/-- What a call to confirm the handshake may succeed for. -/
theorem confirmed_of_run {a : SessionAnswer} (h : Run Step (create key checkout options) (t ++ [e]) w)
    (he : e.gives = some (.initialized, .ok a)) :
    w.session.Confirmed ∨ w.Ahead ∨ Forgotten (t ++ [e]) := by
  obtain ⟨u, hu, hstep⟩ := h.last
  have hinformed := informed_of_run hu
  cases hstep.confirms hinformed.apt (spoken_of_run hu) (lived_of_run hu).phased with
  | aside hsent _ _ _ _ _ hgives => exact (informed_of_run h).of_sent h (hsent.trans (hgives a he))
  | take => cases he
  | settle hn _ _ hend =>
    obtain ⟨-, hconfirmed⟩ | ⟨rfl | ⟨error, rfl⟩, -⟩ := hend
    · exact Or.inl hconfirmed
    · cases he
    · cases he

/-! ### What callers may rely on -/

/-- What callers may rely on about the memory of a session, after a history of events. -/
structure Bookkept (key : RepositoryKey) (checkout : Path) (options : SessionOptions)
    (t : List SessionEvent) (w : SessionWorld) : Prop where
  /-- Calls that fail or are given up change nothing of what is remembered of documents: it stays as it is
  while no call that opens the document succeeds. -/
  documents : ∀ before after u uri, t = before ++ after → Run Step (create key checkout options) before u →
    Run Step u after w → (∀ n path text a, .returned n (.didOpen path text) (.ok a) ∈ after →
      u.session.documentUri path ≠ .ok uri) →
    (w.session.slot uri).opened = (u.session.slot uri).opened ∧ w.session.told uri = u.session.told uri
  /-- A call that does not get to wait with the confirmation does not have it taken for sent. -/
  unsent : ∀ before after u, t = before ++ after → Run Step u after w →
    (∀ n state, .began n .initialized state none ∉ after) →
    w.session.initializedSent = u.session.initializedSent
  /-- A call to confirm the handshake succeeds only when the confirmation is written or waits, or was
  forgotten. -/
  confirmed : ∀ before e a, t = before ++ [e] → e.gives = some (.initialized, .ok a) →
    w.session.Confirmed ∨ w.Ahead ∨ Forgotten t
  /-- What was forgotten is neither written nor waits. -/
  forgotten : Forgotten t → ¬ w.session.Confirmed ∧ ¬ w.Ahead
  /-- A document that the server was never told to open is opened with version 1 by whoever has it for
  itself. -/
  opens : ∀ (n : Nat) path text uri ticket language digest c fs,
    w.calls[n]? = some ⟨.didOpen path text, some (.queued uri ticket language text digest)⟩ →
    (w.session.slot uri).lock.isHolder ticket = true → w.session.client = some c → c.closed = false →
    ¬ w.Introduced uri → ∃ note s,
      Session.turn fs w.now (.queued uri ticket language text digest) w.session =
        .moved (.sending uri ticket ⟨1, digest⟩ note) s ∧
      note.message = Client.noteMessage "textDocument/didOpen" (Session.openParams uri language text)
  /-- Only a document that the server was told to open is taken for open. -/
  introduced : ∀ before e path text a, t = before ++ [e] → e.gives = some (.didOpen path text, .ok a) →
    ∃ uri, w.session.documentUri path = .ok uri ∧ w.Introduced uri

/-- Whoever has a document for itself that is not open sends its text as the first. -/
theorem turn_of_not_introduced (h : Followed t w) {uri language text digest : String} {ticket : Nat}
    {c : Client} (fs : FileSystem) (hholder : (w.session.slot uri).lock.isHolder ticket = true)
    (hclient : w.session.client = some c) (hopen : c.closed = false) (hnot : ¬ w.Introduced uri) :
    ∃ note s, Session.turn fs w.now (.queued uri ticket language text digest) w.session =
        .moved (.sending uri ticket ⟨1, digest⟩ note) s ∧
      note.message = Client.noteMessage "textDocument/didOpen" (Session.openParams uri language text) := by
  have hnone : (w.session.slot uri).opened = none := by
    by_contra hknown
    obtain ⟨known, hknown⟩ := Option.ne_none_iff_exists'.mp hknown
    exact hnot (introduced_of_opened h hknown)
  rw [Session.opened_slot] at hnone
  refine ⟨⟨c.queue.1, _⟩, w.session.withClient c.queue.2, ?_, rfl⟩
  rw [Session.turn_queued, if_pos hholder]
  simp only [Session.sendText, hclient, hnone, Note.start, hopen]
  rfl

/-- A call that opens a document succeeds only when the server was told to open it. -/
theorem introduced_of_run {path text : String} {a : SessionAnswer}
    (h : Run Step (create key checkout options) (t ++ [e]) w)
    (he : e.gives = some (.didOpen path text, .ok a)) :
    ∃ uri, w.session.documentUri path = .ok uri ∧ w.Introduced uri := by
  obtain ⟨uri, known, huri, -, hknown, -⟩ := remembered_of_run h he
  exact ⟨uri, huri, introduced_of_opened (followed_of_run h).2 hknown⟩

/-- In every run of callers with one session, in which calls may fail or be given up, callers may rely on what
the session remembers. -/
theorem bookkept_of_run (h : Run Step (create key checkout options) t w) :
    Bookkept key checkout options t w where
  documents := by
    rintro before after u uri rfl hu hafter hfail
    obtain ⟨hopened, htold, -⟩ := opened_of_run hu hafter hfail
    exact ⟨hopened, htold⟩
  unsent _ _ _ _ hafter hnot := initializedSent_eq_of_run hafter hnot
  confirmed := by
    rintro before e a rfl he
    exact confirmed_of_run h he
  forgotten := (informed_of_run h).of_forgotten
  opens _ _ _ _ _ _ _ _ fs _ hholder hclient hopen hnot :=
    turn_of_not_introduced (followed_of_run h).2 fs hholder hclient hopen hnot
  introduced := by
    rintro before e path text a rfl he
    exact introduced_of_run h he

/-- Whether the calls of some kind have succeeded, in the order in which they were over. -/
def outcomes (kind : SessionCall → Bool) (t : List SessionEvent) : List Bool :=
  ((t.filterMap SessionEvent.gives).filter fun x ↦ kind x.1).map fun x ↦ x.2.isOk

/-- A document whose first text could not be written is opened with the next one. -/
theorem bookkept_reopened : ∃ t w, Run Step (create default ⟨"/a"⟩ default) t w ∧
    outcomes SessionCall.opensDocument t = [false, true] ∧
      (w.session.slot "file:///a/m.c").opened = some ⟨1, Digest.ofText "int n;"⟩ ∧
        Bookkept default ⟨"/a"⟩ default t w := by
  obtain ⟨t, w, hrun, hcheck⟩ := exists_run_of_play move (fun _ _ _ _ ↦ step_of_move)
    (create default ⟨"/a"⟩ default) (SessionMove.start ++ [.serve [] false false,
      .begin (.didOpen "m.c" "int m;"), .go 1, .go 1, .serve [] true false,
      .begin (.didOpen "m.c" "int n;"), .go 2, .go 2])
    (fun t w ↦ outcomes SessionCall.opensDocument t = [false, true] ∧
      (w.session.slot "file:///a/m.c").opened = some ⟨1, Digest.ofText "int n;"⟩)
    (by decide +kernel)
  obtain ⟨houtcomes, hopened⟩ := of_decide_eq_true hcheck
  exact ⟨t, w, hrun, houtcomes, hopened, bookkept_of_run hrun⟩

/-- A call to confirm the handshake fails, and the next one succeeds although the confirmation is not written
and does not wait. -/
theorem exists_forgotten : ∃ t u more w, Run Step (create default ⟨"/a"⟩ default) t u ∧ Run Step u more w ∧
    u.session.initializedSent = false ∧ w.session.initializedSent = true ∧
      outcomes SessionCall.confirmsHandshake more = [false, true] ∧ ¬ w.session.Confirmed ∧ ¬ w.Ahead := by
  obtain ⟨t, u, more, w, hrun, hmore, hcheck⟩ := exists_runs_of_moves (create default ⟨"/a"⟩ default)
    (SessionMove.start ++ [.serve [] false false]) [.begin .initialized, .go 1, .begin .initialized]
    (fun u more w ↦ (u.session.initializedSent = false ∧ w.session.initializedSent = true ∧
        outcomes SessionCall.confirmsHandshake more = [false, true] ∧
          ∀ m ∈ w.session.post.written, MessageKind.of m ≠ .confirmation) ∧
      w.calls.all fun c ↦ c.phase.all fun phase ↦ phase.kind ≠ .confirmation)
    (by decide +kernel)
  obtain ⟨⟨hbefore, hafter, houtcomes, hwritten⟩, hcalls⟩ := of_decide_eq_true hcheck
  refine ⟨t, u, more, w, hrun, hmore, hbefore, hafter, houtcomes, fun hconfirmed ↦ ?_, ?_⟩
  · exact hwritten _ hconfirmed (MessageKind.of_noteMessage _ _)
  · rintro ⟨n, note, hn, -⟩
    exact absurd (List.all_eq_true.mp hcalls _ (List.mem_of_getElem? hn)) (by simp [SessionPhase.kind])

end SessionWorld

end CodeNav
