import CodeNav.Proofs.Server.Documents
import CodeNav.Proofs.Server.Schedules
import CodeNav.Proofs.Server.Spellings
import Mathlib.Data.List.Chain

/-!
# The texts of documents

A server keeps the text of every document that was opened, and follows its changes by their versions:
the first message about a document opens it with version 1, and each later one has the next version.
Callers may open one document at the same time, and give up; they take turns in the queue of the
document, and what is remembered of the document is what the last of them has written.

## Main definitions

* `conversation`: the messages that tell the server some texts, one after the other
* `SessionWorld.given`: the texts that somebody wanted to open a document with
* `SessionWorld.Followed`: what is remembered of documents is what the server was told last
* `SessionWorld.Documented`: what callers may rely on

## Main statements

* `SessionWorld.Seated.step`, `SessionWorld.Followed.step`: the steps keep the invariants
* `SessionWorld.documented_of_run`: callers may rely on it in every run
-/

namespace CodeNav

/-- The messages that tell the server some texts of a document, one after the other: the first one
opens the document with version 1, and the one at position `i` counted from one has version `i`. -/
def conversation (uri language : String) (texts : List String) : List Json :=
  texts.mapIdx fun i text ↦
    if i = 0 then Client.noteMessage "textDocument/didOpen" (Session.openParams uri language text)
    else Client.noteMessage "textDocument/didChange" (Session.changeParams uri (i + 1) text)

/-- What is remembered of a document after the server was told some texts. -/
def openedAfter (texts : List String) : Option OpenDocument :=
  texts.getLast?.map fun text ↦ ⟨texts.length, Digest.ofText text⟩

/-- The message with a text goes on with the conversation, or begins one. -/
theorem exists_conversation_concat (uri language language' : String) (texts : List String)
    (text : String) : ∃ language'', conversation uri language texts ++
      [Session.textMessage uri language' text (openedAfter texts)] =
        conversation uri language'' (texts ++ [text]) := by
  rcases List.eq_nil_or_concat' texts with rfl | ⟨before, last, rfl⟩
  · exact ⟨language', rfl⟩
  · refine ⟨language, ?_⟩
    have hopened : openedAfter (before ++ [last]) =
        some ⟨(before ++ [last]).length, Digest.ofText last⟩ := by simp [openedAfter]
    rw [hopened, conversation, conversation, List.mapIdx_concat (l := before ++ [last])]
    simp [Session.textMessage]

/-- What is remembered after one more text. -/
theorem openedAfter_concat (texts : List String) (text : String) :
    openedAfter (texts ++ [text]) =
      some (Session.nextDocument (Digest.ofText text) (openedAfter texts)) := by
  rcases List.eq_nil_or_concat' texts with rfl | ⟨before, last, rfl⟩
  · rfl
  · simp [openedAfter, Session.nextDocument]

/-- A text that differs from the last one may follow. -/
theorem isChain_concat {texts : List String} {text : String} (h : texts.IsChain (· ≠ ·))
    (hnew : ∀ known, openedAfter texts = some known → known.digest ≠ Digest.ofText text) :
    (texts ++ [text]).IsChain (· ≠ ·) := by
  refine h.append (.singleton _) fun last hlast first hfirst ↦ ?_
  obtain rfl := Option.some.inj hfirst
  rintro rfl
  exact hnew ⟨texts.length, Digest.ofText last⟩ (by simp [openedAfter, Option.mem_def.mp hlast]) rfl

/-- The text that a call wants to open a document with. -/
def SessionEvent.text? : SessionEvent → Option String
  | began _ (.didOpen _ text) _ _ => some text
  | _ => none

namespace SessionWorld

variable {w w' : SessionWorld} {t before after : List SessionEvent} {e : SessionEvent}
  {key : RepositoryKey} {checkout : Path} {options : SessionOptions} {s s' : Session}
  {what : SessionCall} {phase : SessionPhase} {uri : String} {ticket n : Nat}

/-! ### Places at documents -/

theorem serves_of_seat?_eq_none (hseat : phase.seat? = none)
    (hopen : ∀ path text, what ≠ .didOpen path text) : Serves s what phase := by
  cases phase with
  | queued | sending => cases hseat
  | _ => exact hopen

/-- A call is still at the same when what is known of its document has not changed. -/
theorem Serves.congr (h : Serves s what phase)
    (huri : ∀ path, s'.documentUri path = s.documentUri path)
    (hopened : ∀ uri ticket opened note, phase = .sending uri ticket opened note →
      (s'.slot uri).opened = (s.slot uri).opened) : Serves s' what phase := by
  cases phase with
  | queued uri ticket language text digest =>
    obtain ⟨path, hwhat, hpath, hdigest⟩ := h
    exact ⟨path, hwhat, (huri path).trans hpath, hdigest⟩
  | sending uri ticket opened note =>
    obtain ⟨path, language, text, hwhat, hpath, hmessage, hnext, hnew⟩ := h
    have heq := hopened uri ticket opened note rfl
    refine ⟨path, language, text, hwhat, (huri path).trans hpath, ?_⟩
    rw [heq]
    exact ⟨hmessage, hnext, hnew⟩
  | _ => exact h

theorem documentUri_of_checkout (h : s'.checkout = s.checkout) (path : String) :
    s'.documentUri path = s.documentUri path := by
  simp only [Session.documentUri, Session.documentFile, h]

namespace Seated

theorem create : Seated (create key checkout options) where
  wellFormed _ := FairLock.wellFormed_free
  serves _ _ _ hn := absurd hn (by simp [SessionWorld.create])
  queued _ _ _ _ _ hn := absurd hn (by simp [SessionWorld.create])
  apart _ _ _ _ _ _ _ hn := absurd hn (by simp [SessionWorld.create])
  holder _ _ _ _ _ _ hn := absurd hn (by simp [SessionWorld.create])

/-- Everybody else stays in place when somebody leaves a document. -/
theorem left (h : w.Seated) (hn : w.calls[n]? = some ⟨what, some phase⟩)
    (hseat : phase.seat? = some (uri, ticket)) (hcheckout : w'.session.checkout = w.session.checkout)
    (hlock : ∀ other, (w'.session.slot other).lock =
      if other = uri then (w.session.slot uri).lock.leave ticket else (w.session.slot other).lock)
    (hopened : ∀ m what' uri' ticket' opened note, m ≠ n →
      w.calls[m]? = some ⟨what', some (.sending uri' ticket' opened note)⟩ →
      (w'.session.slot uri').opened = (w.session.slot uri').opened)
    (hcalls : w'.calls = w.calls.set n ⟨what, none⟩) : w'.Seated := by
  have hothers : ∀ (m : Nat) what' phase', w'.calls[m]? = some ⟨what', some phase'⟩ →
      m ≠ n ∧ w.calls[m]? = some ⟨what', some phase'⟩ := by
    intro m what' phase' hm
    rw [hcalls] at hm
    rcases (getElem?_set_eq_some hn).mp hm with ⟨-, heq⟩ | hm
    · cases heq
    · exact hm
  have hne : ∀ (m : Nat) what' phase' ticket', m ≠ n → w.calls[m]? = some ⟨what', some phase'⟩ →
      phase'.seat? = some (uri, ticket') → ticket' ≠ ticket := by
    rintro m what' phase' ticket' hmn hm hseat' rfl
    exact hmn (h.apart m n _ _ _ _ _ hm hn hseat' hseat)
  refine ⟨fun other ↦ ?_, fun m what' phase' hm ↦ ?_, fun m what' phase' other ticket' hm hseat' ↦ ?_,
    fun m k _ _ _ _ seat hm hk hmseat hkseat ↦ ?_, fun m what' other ticket' opened note hm ↦ ?_⟩
  · rw [hlock]
    split
    · exact (h.wellFormed uri).leave ticket
    · exact h.wellFormed other
  · obtain ⟨hmn, hm⟩ := hothers m what' phase' hm
    refine (h.serves m what' phase' hm).congr (documentUri_of_checkout hcheckout) ?_
    rintro uri' ticket' opened note rfl
    exact hopened m what' uri' ticket' opened note hmn hm
  · obtain ⟨hmn, hm⟩ := hothers m what' phase' hm
    have hmem := h.queued m what' phase' other ticket' hm hseat'
    rw [hlock]
    split
    · rename_i hother
      subst hother
      exact (FairLock.mem_queue_leave (hne m what' phase' ticket' hmn hm hseat')).mpr hmem
    · exact hmem
  · exact h.apart m k _ _ _ _ seat (hothers _ _ _ hm).2 (hothers _ _ _ hk).2 hmseat hkseat
  · obtain ⟨hmn, hm⟩ := hothers m what' _ hm
    have hholder := h.holder m what' other ticket' opened note hm
    rw [hlock]
    split
    · rename_i hother
      subst hother
      exact FairLock.isHolder_leave hholder (hne m what' _ ticket' hmn hm rfl)
    · exact hholder

/-- Everybody stays in place while documents are left alone. -/
theorem aside (h : w.Seated) (hs : w.session.Aside w'.session)
    (hcalls : ∀ (n : Nat) what phase, w'.calls[n]? = some ⟨what, some phase⟩ →
      w.calls[n]? = some ⟨what, some phase⟩ ∨
        phase.seat? = none ∧ ∀ path text, what ≠ .didOpen path text) : w'.Seated := by
  have hsame : ∀ (n : Nat) what phase seat, w'.calls[n]? = some ⟨what, some phase⟩ →
      phase.seat? = some seat → w.calls[n]? = some ⟨what, some phase⟩ := by
    intro n what phase seat hn hseat
    refine (hcalls n what phase hn).resolve_right fun hnone ↦ ?_
    simp [hseat] at hnone
  refine ⟨fun uri ↦ ?_, fun n what phase hn ↦ ?_, fun n what phase uri ticket hn hseat ↦ ?_,
    fun n m _ _ _ _ seat hn hm hnseat hmseat ↦ ?_, fun n what uri ticket opened note hn ↦ ?_⟩
  · rw [hs.slot]
    exact h.wellFormed uri
  · rcases hcalls n what phase hn with hn | ⟨hseat, hopen⟩
    · refine (h.serves n what phase hn).congr hs.documentUri fun uri ticket opened note _ ↦ ?_
      rw [hs.slot]
    · exact serves_of_seat?_eq_none hseat hopen
  · rw [hs.slot]
    exact h.queued n what phase uri ticket (hsame n what phase _ hn hseat) hseat
  · exact h.apart n m _ _ _ _ seat (hsame _ _ _ _ hn hnseat) (hsame _ _ _ _ hm hmseat) hnseat
      hmseat
  · rw [hs.slot]
    exact h.holder n what uri ticket opened note (hsame _ _ _ _ hn rfl)

/-- Everybody stays in place when somebody queues up for a document. -/
theorem enter (h : w.Seated) {path text language : String} (huri : w.session.documentUri path = .ok uri)
    (hcheckout : w'.session.checkout = w.session.checkout)
    (hslot : ∀ other, w'.session.slot other =
      if other = uri then { w.session.slot uri with lock := (w.session.slot uri).lock.enter.2 }
      else w.session.slot other)
    (hcalls : w'.calls = w.calls ++ [⟨.didOpen path text,
      some (.queued uri (w.session.slot uri).lock.enter.1 language text (Digest.ofText text))⟩]) :
    w'.Seated := by
  have hopened : ∀ other, (w'.session.slot other).opened = (w.session.slot other).opened :=
    opened_of_lock hslot
  have hold : ∀ (n : Nat) what phase, w'.calls[n]? = some ⟨what, some phase⟩ →
      w.calls[n]? = some ⟨what, some phase⟩ ∨ n = w.calls.length ∧ what = .didOpen path text ∧
        phase = .queued uri (w.session.slot uri).lock.enter.1 language text
          (Digest.ofText text) := by
    intro n what phase hn
    rw [hcalls] at hn
    refine (getElem?_concat_eq_some.mp hn).imp_right fun ⟨hlast, heq⟩ ↦ ⟨hlast, ?_⟩
    obtain ⟨hwhat, hphase⟩ := SessionEntry.mk.inj heq
    exact ⟨hwhat, Option.some.inj hphase⟩
  -- The new ticket is nobody else's.
  have hnew : ∀ (n : Nat) what phase, w.calls[n]? = some ⟨what, some phase⟩ →
      phase.seat? ≠ some (uri, (w.session.slot uri).lock.enter.1) := fun n what phase hn hseat ↦
    (h.wellFormed uri).ticket_notMem (h.queued n what phase uri _ hn hseat)
  have hmem : ∀ other ticket, ticket ∈ (w.session.slot other).lock.queue →
      ticket ∈ (w'.session.slot other).lock.queue := by
    intro other ticket hticket
    rw [hslot]
    split
    · rename_i hother
      subst hother
      exact FairLock.mem_queue_enter.mpr (Or.inl hticket)
    · exact hticket
  refine ⟨fun other ↦ ?_, fun n what phase hn ↦ ?_, fun n what phase other ticket hn hseat ↦ ?_,
    fun n m _ _ _ _ seat hn hm hnseat hmseat ↦ ?_, fun n what other ticket opened note hn ↦ ?_⟩
  · rw [hslot]
    split
    · exact (h.wellFormed uri).enter
    · exact h.wellFormed other
  · rcases hold n what phase hn with hn | ⟨-, rfl, rfl⟩
    · exact (h.serves n what phase hn).congr (documentUri_of_checkout hcheckout) fun other _ _ _ _ ↦
        hopened other
    · exact ⟨path, rfl, (documentUri_of_checkout hcheckout path).trans huri, rfl⟩
  · rcases hold n what phase hn with hn | ⟨-, rfl, rfl⟩
    · exact hmem other ticket (h.queued n what phase other ticket hn hseat)
    · obtain ⟨rfl, rfl⟩ := Prod.mk.inj (Option.some.inj hseat)
      rw [hslot, if_pos rfl]
      exact FairLock.mem_queue_enter.mpr (Or.inr rfl)
  · rcases hold _ _ _ hn with hn | ⟨rfl, rfl, rfl⟩ <;> rcases hold _ _ _ hm with hm | ⟨rfl, rfl, rfl⟩
    · exact h.apart n m _ _ _ _ seat hn hm hnseat hmseat
    · exact absurd (hnseat.trans hmseat.symm) (hnew _ _ _ hn)
    · exact absurd (hmseat.trans hnseat.symm) (hnew _ _ _ hm)
    · rfl
  · rcases hold _ _ _ hn with hn | ⟨-, -, hphase⟩
    · have hholder := h.holder n what other ticket opened note hn
      rw [hslot]
      split
      · rename_i hother
        subst hother
        exact FairLock.isHolder_enter hholder
      · exact hholder
    · cases hphase

/-- Everybody stays in place when somebody who has a document for itself is going to send its text. -/
theorem send (h : w.Seated) {language text digest : String} {note : Note}
    (hn : w.calls[n]? = some ⟨what, some (.queued uri ticket language text digest)⟩)
    (hs : w.session.Aside w'.session) (hholder : (w.session.slot uri).lock.isHolder ticket = true)
    (hmessage : note.message = Session.textMessage uri language text (w.session.slot uri).opened)
    (hnew : ∀ known, (w.session.slot uri).opened = some known → known.digest ≠ digest)
    (hcalls : w'.calls = w.calls.set n ⟨what, some (.sending uri ticket
      (Session.nextDocument digest (w.session.slot uri).opened) note)⟩) : w'.Seated := by
  obtain ⟨path, hwhat, huri, rfl⟩ := h.serves n what _ hn
  -- The call that sends its text has the same place as before.
  have hold : ∀ (m : Nat) what' phase', w'.calls[m]? = some ⟨what', some phase'⟩ →
      (m = n ∧ what' = what ∧ phase' = .sending uri ticket
        (Session.nextDocument (Digest.ofText text) (w.session.slot uri).opened) note) ∨
      w.calls[m]? = some ⟨what', some phase'⟩ := by
    intro m what' phase' hm
    rw [hcalls] at hm
    rcases (getElem?_set_eq_some hn).mp hm with ⟨rfl, heq⟩ | ⟨-, hm⟩
    · obtain ⟨hwhat', hphase'⟩ := SessionEntry.mk.inj heq
      exact Or.inl ⟨rfl, hwhat', Option.some.inj hphase'⟩
    · exact Or.inr hm
  have hseat : ∀ (m : Nat) what' phase' seat, w'.calls[m]? = some ⟨what', some phase'⟩ →
      phase'.seat? = some seat → ∃ what₀ phase₀, w.calls[m]? = some ⟨what₀, some phase₀⟩ ∧
        phase₀.seat? = some seat := by
    intro m what' phase' seat hm hseat
    rcases hold m what' phase' hm with ⟨rfl, rfl, rfl⟩ | hm
    · exact ⟨_, _, hn, hseat⟩
    · exact ⟨_, _, hm, hseat⟩
  refine ⟨fun other ↦ ?_, fun m what' phase' hm ↦ ?_, fun m what' phase' other ticket' hm hm' ↦ ?_,
    fun m k _ _ _ _ seat hm hk hmseat hkseat ↦ ?_, fun m what' other ticket' opened note' hm ↦ ?_⟩
  · rw [hs.slot]
    exact h.wellFormed other
  · rcases hold m what' phase' hm with ⟨rfl, rfl, rfl⟩ | hm
    · refine ⟨path, language, text, hwhat, (hs.documentUri path).trans huri, ?_⟩
      rw [hs.slot]
      exact ⟨hmessage, rfl, hnew⟩
    · refine (h.serves m what' phase' hm).congr hs.documentUri fun uri' _ _ _ _ ↦ ?_
      rw [hs.slot]
  · obtain ⟨what₀, phase₀, hm₀, hseat₀⟩ := hseat m what' phase' _ hm hm'
    rw [hs.slot]
    exact h.queued m what₀ phase₀ other ticket' hm₀ hseat₀
  · obtain ⟨_, _, hm₀, hmseat₀⟩ := hseat m _ _ _ hm hmseat
    obtain ⟨_, _, hk₀, hkseat₀⟩ := hseat k _ _ _ hk hkseat
    exact h.apart m k _ _ _ _ seat hm₀ hk₀ hmseat₀ hkseat₀
  · rw [hs.slot]
    rcases hold m what' _ hm with ⟨-, -, hphase⟩ | hm
    · obtain ⟨rfl, rfl, -, -⟩ := SessionPhase.sending.inj hphase
      exact hholder
    · exact h.holder m what' other ticket' opened note' hm

/-- Every step keeps everybody in place. -/
theorem step (h : w.Seated) (hstep : Treats w e w') : w'.Seated := by
  cases hstep with
  | aside hs hcalls => exact h.aside hs hcalls
  | enter language huri hcheckout hslot _ hcalls => exact h.enter huri hcheckout hslot hcalls
  | send hn hs hholder hmessage hnew hcalls => exact h.send hn hs hholder hmessage hnew hcalls
  | @leave e w' n what phase uri ticket hn hseat hcheckout hslot htold hcalls hgives =>
    refine h.left hn hseat hcheckout (fun other ↦ ?_) (fun _ _ other _ _ _ _ _ ↦ ?_) hcalls
    · rw [hslot]
      split <;> rfl
    · exact opened_of_lock hslot other
  | @tell w' n what uri ticket opened note hn hcheckout hslot htold hcalls =>
    refine h.left hn rfl hcheckout (fun other ↦ ?_) (fun m what' other ticket' _ _ hmn hm ↦ ?_) hcalls
    · rw [hslot]
      split <;> rfl
    · rw [hslot, if_neg]
      -- Only one of them has the document for itself.
      rintro rfl
      have hticket := FairLock.holder_unique (h.holder m what' other ticket' _ _ hm)
        (h.holder n what other ticket opened note hn)
      exact hmn (h.apart m n _ _ _ _ _ hm hn rfl (by rw [hticket]; rfl))

end Seated

/-! ### What the server was told -/

/-- The texts that somebody wanted to open a document with. -/
def given (t : List SessionEvent) : List String :=
  t.filterMap SessionEvent.text?

theorem mem_given_append {text : String} (h : text ∈ given t) (more : List SessionEvent) :
    text ∈ given (t ++ more) := by
  rw [given, List.filterMap_append]
  exact List.mem_append_left _ h

/-- What is remembered of documents is what the server was told last, and all that it was told is what
somebody has given. -/
structure Followed (t : List SessionEvent) (w : SessionWorld) : Prop where
  told : ∀ uri, ∃ language texts, w.session.told uri = conversation uri language texts ∧
    texts.IsChain (· ≠ ·) ∧ (w.session.slot uri).opened = openedAfter texts ∧
    ∀ text ∈ texts, text ∈ given t
  wanted : ∀ (n : Nat) path text phase, w.calls[n]? = some ⟨.didOpen path text, some phase⟩ →
    text ∈ given t

namespace Followed

theorem create : Followed [] (create key checkout options) where
  told uri := ⟨"", [], rfl, .nil, rfl, nofun⟩
  wanted _ _ _ _ hn := absurd hn (by simp [SessionWorld.create])

/-- What the server was told stays as it is when nothing is written and nothing else remembered. -/
theorem told_concat (h : Followed t w) (e : SessionEvent)
    (hopened : ∀ uri, (w'.session.slot uri).opened = (w.session.slot uri).opened)
    (htold : ∀ uri, w'.session.told uri = w.session.told uri) (uri : String) :
    ∃ language texts, w'.session.told uri = conversation uri language texts ∧
      texts.IsChain (· ≠ ·) ∧ (w'.session.slot uri).opened = openedAfter texts ∧
      ∀ text ∈ texts, text ∈ given (t ++ [e]) := by
  obtain ⟨language, texts, hconversation, hchain, hlast, hgiven⟩ := h.told uri
  exact ⟨language, texts, (htold uri).trans hconversation, hchain, (hopened uri).trans hlast,
    fun text htext ↦ mem_given_append (hgiven text htext) _⟩

/-- Every step that treats documents keeps track of what the server was told. -/
theorem step (h : Followed t w) (hseated : w.Seated) (hstep : Treats w e w') :
    Followed (t ++ [e]) w' := by
  cases hstep with
  | aside hs hcalls hgives =>
    refine ⟨h.told_concat e (fun uri ↦ by rw [hs.slot]) hs.told, fun n path text phase hn ↦ ?_⟩
    rcases hcalls n _ phase hn with hn | ⟨-, hopen⟩
    · exact mem_given_append (h.wanted n path text phase hn) _
    · exact absurd rfl (hopen path text)
  | @enter w' path text uri language huri hcheckout hslot htold hcalls =>
    refine ⟨h.told_concat _ (opened_of_lock hslot) htold, fun n path' text' phase hn ↦ ?_⟩
    rw [hcalls] at hn
    rcases getElem?_concat_eq_some.mp hn with hn | ⟨-, heq⟩
    · exact mem_given_append (h.wanted n path' text' phase hn) _
    · obtain ⟨hwhat, -⟩ := SessionEntry.mk.inj heq
      obtain ⟨rfl, rfl⟩ := SessionCall.didOpen.inj hwhat
      simp [given, SessionEvent.text?]
  | @send w' n what uri language text digest ticket note hn hs hholder hmessage hnew hcalls =>
    refine ⟨h.told_concat _ (fun uri ↦ by rw [hs.slot]) hs.told, fun m path' text' phase hm ↦ ?_⟩
    rw [hcalls] at hm
    rcases (getElem?_set_eq_some hn).mp hm with ⟨-, heq⟩ | ⟨-, hm⟩
    · obtain ⟨rfl, -⟩ := SessionEntry.mk.inj heq
      exact mem_given_append (h.wanted n path' text' _ hn) _
    · exact mem_given_append (h.wanted m path' text' phase hm) _
  | @leave e w' n what phase uri ticket hn hseat hcheckout hslot htold hcalls hgives =>
    refine ⟨h.told_concat e (opened_of_lock hslot) htold, fun m path' text' phase hm ↦ ?_⟩
    rw [hcalls] at hm
    rcases (getElem?_set_eq_some hn).mp hm with ⟨-, heq⟩ | ⟨-, hm⟩
    · cases heq
    · exact mem_given_append (h.wanted m path' text' phase hm) _
  | @tell w' n what uri ticket opened note hn hcheckout hslot htold hcalls =>
    obtain ⟨path, language', text, rfl, -, hmessage, hnext, hnew⟩ := hseated.serves n what _ hn
    refine ⟨fun other ↦ ?_, fun m path' text' phase hm ↦ ?_⟩
    · obtain ⟨language, texts, hconversation, hchain, hlast, hgiven⟩ := h.told other
      by_cases hother : other = uri
      · subst hother
        rw [hlast] at hmessage hnext hnew
        obtain ⟨language'', hconcat⟩ :=
          exists_conversation_concat other language language' texts text
        refine ⟨language'', texts ++ [text], ?_, isChain_concat hchain hnew, ?_, fun a ha ↦ ?_⟩
        · rw [htold, if_pos rfl, hconversation, hmessage, hconcat]
        · rw [hslot, if_pos rfl, openedAfter_concat, hnext]
        · rcases List.mem_append.mp ha with ha | ha
          · exact mem_given_append (hgiven a ha) _
          · obtain rfl := List.mem_singleton.mp ha
            exact mem_given_append (h.wanted n path a _ hn) _
      · refine ⟨language, texts, ?_, hchain, ?_, fun a ha ↦ mem_given_append (hgiven a ha) _⟩
        · rw [htold, if_neg hother, List.append_nil, hconversation]
        · rw [hslot, if_neg hother, hlast]
    · rw [hcalls] at hm
      rcases (getElem?_set_eq_some hn).mp hm with ⟨-, heq⟩ | ⟨-, hm⟩
      · cases heq
      · exact mem_given_append (h.wanted m path' text' phase hm) _

end Followed

theorem followed_of_run (h : Run Step (create key checkout options) t w) :
    w.Seated ∧ Followed t w := by
  refine h.invariant (P := fun t w ↦ w.Seated ∧ Followed t w) ⟨.create, .create⟩ ?_
  rintro t u e v hrun ⟨hseated, hfollowed⟩ hstep
  have htreats := hstep.treats hseated (spoken_of_run hrun) (lived_of_run hrun).phased
  exact ⟨hseated.step htreats, hfollowed.step hseated htreats⟩

/-! ### What callers may rely on -/

/-- A call that has succeeded leaves the digest of its text with the document. -/
theorem remembered_of_run {path text : String} {a : SessionAnswer}
    (h : Run Step (create key checkout options) (t ++ [e]) w)
    (he : e.gives = some (.didOpen path text, .ok a)) :
    ∃ uri known, w.session.documentUri path = .ok uri ∧ text ∈ given t ∧
      (w.session.slot uri).opened = some known ∧ known.digest = Digest.ofText text := by
  obtain ⟨u, hu, hstep⟩ := h.last
  obtain ⟨hseated, hfollowed⟩ := followed_of_run hu
  cases hstep.treats hseated (spoken_of_run hu) (lived_of_run hu).phased with
  | aside hs hcalls hgives => exact absurd he (hgives path text a)
  | enter => cases he
  | send => cases he
  | @leave e w n what phase uri ticket hn hseat hcheckout hslot htold hcalls hgives =>
    obtain ⟨rfl, language, text', known, rfl, hknown⟩ := hgives _ _ he
    obtain ⟨path', hwhat, huri, hdigest⟩ := hseated.serves n _ _ hn
    obtain ⟨rfl, rfl⟩ := SessionCall.didOpen.inj hwhat
    refine ⟨uri, known, (documentUri_of_checkout hcheckout path).trans huri,
      hfollowed.wanted n path text _ hn, ?_, hdigest⟩
    rw [hslot, if_pos rfl]
    exact hknown
  | @tell w n what uri ticket opened note hn hcheckout hslot htold hcalls =>
    obtain ⟨rfl, -⟩ := Prod.mk.inj (Option.some.inj he)
    obtain ⟨path', language, text', hwhat, huri, -, hnext, -⟩ := hseated.serves n _ _ hn
    obtain ⟨rfl, rfl⟩ := SessionCall.didOpen.inj hwhat
    refine ⟨uri, opened, (documentUri_of_checkout hcheckout path).trans huri,
      hfollowed.wanted n path text _ hn, ?_, ?_⟩
    · rw [hslot, if_pos rfl]
    · rw [hnext]
      cases (u.session.slot uri).opened <;> rfl

end SessionWorld

end CodeNav
