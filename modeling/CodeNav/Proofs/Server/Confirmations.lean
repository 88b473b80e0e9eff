import CodeNav.Proofs.Server.Polite

/-!
# Who confirms the handshake

The first call that is to confirm the handshake of a session takes the confirmation on, and every later one
takes it for sent. Whether it is sent depends on that first call alone: it waits for the writer, and writes the
confirmation, or fails, or is given up. What the steps of a session do to the confirmation is said once, by
`SessionWorld.Confirms`.

## Main definitions

* `Session.confirmation`, `Session.Confirmed`: the message that confirms the handshake, and that it was written
* `SessionWorld.Confirms`: what the steps do to the confirmation
* `SessionWorld.Failed`: a call that has taken on the confirmation fails, or is given up
* `SessionWorld.Decides`, `SessionWorld.Informed`: what has become of the confirmation

## Main statements

* `SessionWorld.Step.confirms`: every step treats the confirmation in one of these ways
* `SessionWorld.informed_of_run`: in every run, one call at most decides what becomes of the confirmation
-/

namespace CodeNav

/-- A message that the writer does not wait with is written with no step of its own. -/
theorem Post.Moves.mem_written {p p' : Post} {d d' : Option Note} {m : Json} (h : p.Moves d d' p')
    (hne : ∀ n ∈ d, n.message ≠ m) : m ∈ p'.written ↔ m ∈ p.written := by
  rcases h.written with heq | ⟨n, rfl, heq⟩
  · rw [heq]
  · simp [heq, Ne.symm (hne n rfl)]

namespace Session

variable {s s' : Session} {now : Nat} {what : SessionCall} {phase phase' : SessionPhase}

/-- The message that confirms the handshake. -/
def confirmation : Json :=
  Client.noteMessage "initialized" (.object [])

theorem ne_confirmation {m : Json} (h : MessageKind.of m ≠ .confirmation) : m ≠ confirmation := by
  rintro rfl
  exact h (MessageKind.of_noteMessage _ _)

/-- The confirmation was written. -/
def Confirmed (s : Session) : Prop :=
  confirmation ∈ s.post.written

/-- A call is at the confirmation just when it is one for that. -/
def Apt (what : SessionCall) (phase : SessionPhase) : Prop :=
  (what = .initialized ∧ ∃ note, phase = .telling note ∧ note.message = confirmation) ∨
    what ≠ .initialized ∧ ∀ note, phase ≠ .telling note

/-- Who does not wait with the confirmation does not write it. -/
theorem ne_confirmation_of_worded (h : phase.Worded) (hphase : ∀ note, phase ≠ .telling note) :
    ∀ n ∈ phase.draft?, n.message ≠ confirmation := by
  refine fun n hn ↦ ne_confirmation ?_
  rw [h n hn]
  cases phase with
  | telling note => exact absurd rfl (hphase note)
  | _ => exact nofun

/-- A call to confirm the handshake fails at once, finds that somebody has taken the confirmation on, or takes
it on. -/
theorem begin_initialized_cases (s : Session) :
    (∃ e, (begin .initialized s).1 = .inr (.error e)) ∨
      (s.initializedSent = true ∧ (begin .initialized s).1 = .inr (.ok .done)) ∨
        ∃ note, (begin .initialized s).1 = .inl (.telling note) := by
  simp only [begin]
  split
  · exact Or.inl ⟨_, rfl⟩
  · split
    · rename_i hsent
      exact Or.inr (Or.inl ⟨by simpa using hsent, rfl⟩)
    · split
      · exact Or.inl ⟨_, rfl⟩
      · exact Or.inr (Or.inr ⟨_, rfl⟩)

/-- A call that begins writes nothing. -/
theorem confirmed_begin (what : SessionCall) (s : Session) :
    (begin what s).2.Confirmed ↔ s.Confirmed :=
  (s.begins_begin what).moves.1.mem_written nofun

theorem Goes.not_telling (h : Goes now s phase phase' s') :
    (∀ note, phase ≠ .telling note) ∧ ∀ note, phase' ≠ .telling note := by
  cases h <;> exact ⟨nofun, nofun⟩

theorem Goes.confirmed (h : Goes now s phase phase' s') (hworded : phase.Worded) :
    s'.Confirmed ↔ s.Confirmed := by
  obtain ⟨⟨p, hfirst, hsecond⟩, -⟩ := h.moves
  exact (hsecond.mem_written nofun).trans
    (hfirst.mem_written (ne_confirmation_of_worded hworded h.not_telling.1))

theorem confirmed_drop (phase : SessionPhase) (s : Session) : (drop phase s).Confirmed ↔ s.Confirmed := by
  rw [Confirmed, Confirmed, written_drop]

/-- Whoever waits with the confirmation writes it, or has failed. -/
theorem Ends.of_telling {note : Note} {r : SessionResult} (h : Ends now s (.telling note) r s')
    (hmessage : note.message = confirmation) :
    (r = .ok .done ∧ s'.Confirmed) ∨ (∃ e, r = .error e) ∧ (s'.Confirmed ↔ s.Confirmed) := by
  cases h with
  | told hclient hturn =>
    rcases (Note.post_of_turn hturn).2 with ⟨rfl, -, hpost⟩ | ⟨⟨e, rfl⟩, -, hpost⟩
    · refine Or.inl ⟨rfl, ?_⟩
      change confirmation ∈ (Client.post _).written
      rw [hpost, ← hmessage]
      exact List.mem_append_right _ List.mem_cons_self
    · refine Or.inr ⟨⟨e, rfl⟩, ?_⟩
      rw [Confirmed, Confirmed, post_of_client hclient]
      change confirmation ∈ (Client.post _).written ↔ _
      rw [hpost]
      rfl

end Session

open Session (confirmation Apt)

namespace SessionEvent

/-- Whether a call begins or is over with an event. -/
def isOfCall : SessionEvent → Bool
  | began _ _ _ _ => true
  | returned _ _ _ => true
  | dropped _ => true
  | _ => false

/-- A call fails to confirm the handshake, or is given up. -/
def Fails (n : Nat) (e : SessionEvent) : Prop :=
  e = .dropped n ∨ ∃ error, e = .returned n .initialized (.error error)

end SessionEvent

namespace SessionWorld

variable {w w' : SessionWorld} {t : List SessionEvent} {e : SessionEvent} {key : RepositoryKey}
  {checkout : Path} {options : SessionOptions}

/-! ### What the steps do -/

/-- What the steps do to the confirmation of the handshake. -/
inductive Confirms (w : SessionWorld) : SessionEvent → SessionWorld → Prop
  /-- Nobody takes it on, and it stays with whoever has. -/
  | aside {e : SessionEvent} {w' : SessionWorld}
      (hsent : w'.session.initializedSent = w.session.initializedSent)
      (hconfirmed : w'.session.Confirmed ↔ w.session.Confirmed)
      (hkept : ∀ (n : Nat) phase, w.calls[n]? = some ⟨.initialized, phase⟩ →
        w'.calls[n]? = some ⟨.initialized, phase⟩)
      (hcalls : ∀ (n : Nat) what phase, w'.calls[n]? = some ⟨what, some phase⟩ →
        w.calls[n]? = some ⟨what, some phase⟩ ∨ what ≠ .initialized ∧ ∀ note, phase ≠ .telling note)
      (hbegan : ∀ n state, e ≠ .began n .initialized state none)
      (hfails : ∀ n phase, e.Fails n → w.calls[n]? ≠ some ⟨.initialized, phase⟩)
      (hgives : ∀ a, e.gives = some (.initialized, .ok a) → w.session.initializedSent = true) :
      Confirms w e w'
  /-- A call takes it on. -/
  | take {w' : SessionWorld} {note : Note} (hsent : w.session.initializedSent = false)
      (hsent' : w'.session.initializedSent = true)
      (hconfirmed : w'.session.Confirmed ↔ w.session.Confirmed) (hmessage : note.message = confirmation)
      (hcalls : w'.calls = w.calls ++ [⟨.initialized, some (.telling note)⟩]) :
      Confirms w (.began w.calls.length .initialized w.session.state none) w'
  /-- The call that has taken it on writes it, or fails, or is given up. -/
  | settle {e : SessionEvent} {w' : SessionWorld} {n : Nat} {note : Note}
      (hn : w.calls[n]? = some ⟨.initialized, some (.telling note)⟩)
      (hsent : w'.session.initializedSent = w.session.initializedSent)
      (hcalls : w'.calls = w.calls.set n ⟨.initialized, none⟩)
      (hend : (e = .returned n .initialized (.ok .done) ∧ w'.session.Confirmed) ∨
        e.Fails n ∧ (w'.session.Confirmed ↔ w.session.Confirmed)) : Confirms w e w'

/-- A call that is for something else goes on or is over. -/
theorem confirms_set {n : Nat} {what : SessionCall} {phase : SessionPhase} {phase' : Option SessionPhase}
    {s : Session} (hn : w.calls[n]? = some ⟨what, some phase⟩) (hwhat : what ≠ .initialized)
    (hphase : ∀ p, phase' = some p → ∀ note, p ≠ .telling note)
    (hsent : s.initializedSent = w.session.initializedSent) (hconfirmed : s.Confirmed ↔ w.session.Confirmed)
    (he : e = .other ∨ e = .dropped n ∨ ∃ r, e = .returned n what r) :
    Confirms w e { w with session := s, calls := w.calls.set n ⟨what, phase'⟩ } := by
  have hother {m : Nat} {p : Option SessionPhase} (hm : w.calls[m]? = some ⟨.initialized, p⟩) : m ≠ n := by
    rintro rfl
    rw [hn] at hm
    exact hwhat (SessionEntry.mk.inj (Option.some.inj hm)).1
  refine .aside hsent hconfirmed (fun m p hm ↦ ?_) (fun m what' p hm ↦ ?_) ?_ (fun m p hfails hm ↦ ?_) ?_
  · exact (getElem?_set_eq_some hn).mpr (Or.inr ⟨hother hm, hm⟩)
  · rcases (getElem?_set_eq_some hn).mp hm with ⟨-, heq⟩ | ⟨-, hm⟩
    · obtain ⟨rfl, hp⟩ := SessionEntry.mk.inj heq
      exact Or.inr ⟨hwhat, hphase p hp.symm⟩
    · exact Or.inl hm
  · rcases he with rfl | rfl | ⟨r, rfl⟩ <;> exact nofun
  · have hmn := hother hm
    rcases hfails with rfl | ⟨error, rfl⟩ <;> rcases he with he | he | ⟨r, he⟩ <;> cases he <;>
      exact hmn rfl
  · rcases he with rfl | rfl | ⟨r, rfl⟩
    · exact nofun
    · exact nofun
    · exact fun a hgives ↦ absurd (Prod.mk.inj (Option.some.inj hgives)).1 hwhat

/-- A call to confirm the handshake takes that on, or is over at once; the others have nothing to do with it. -/
theorem confirms_begin (what : SessionCall) :
    Confirms w (.began w.calls.length what w.session.state (resultOf (Session.begin what w.session).1))
      { w with
        session := (Session.begin what w.session).2
        calls := w.calls ++ [⟨what, phaseOf (Session.begin what w.session).1⟩] } := by
  have hbegins := w.session.begins_begin what
  have hconfirmed := Session.confirmed_begin what w.session
  by_cases htell : ∃ note, (Session.begin what w.session).1 = .inl (.telling note)
  · obtain ⟨note, hnote⟩ := htell
    obtain ⟨-, hsent, hsent', rfl, hmessage⟩ := hbegins.of_telling hnote
    simp only [hnote]
    exact .take hsent hsent' hconfirmed hmessage rfl
  · -- A call to confirm the handshake is over at once then.
    have hover : what = .initialized → ∃ r, (Session.begin what w.session).1 = .inr r ∧
        ∀ a, r = .ok a → w.session.initializedSent = true := by
      rintro rfl
      rcases w.session.begin_initialized_cases with ⟨e, heq⟩ | ⟨hsent, heq⟩ | htold
      · exact ⟨_, heq, by simp⟩
      · exact ⟨_, heq, fun _ _ ↦ hsent⟩
      · exact absurd htold htell
    refine .aside (hbegins.initializedSent fun note hnote ↦ htell ⟨note, hnote⟩) hconfirmed
      (fun n phase hn ↦ getElem?_concat_eq_some.mpr (Or.inl hn)) (fun n what' phase hn ↦ ?_)
      (fun n state heq ↦ ?_) ?_ (fun a hgives ↦ ?_)
    · rcases getElem?_concat_eq_some.mp hn with hn | ⟨-, heq⟩
      · exact Or.inl hn
      · obtain ⟨rfl, hphase⟩ := SessionEntry.mk.inj heq
        have hinl : (Session.begin what' w.session).1 = .inl phase := by
          cases hb : (Session.begin what' w.session).1 <;> simp_all [phaseOf]
        refine Or.inr ⟨fun hwhat ↦ ?_, fun note hnote ↦ htell ⟨note, hnote ▸ hinl⟩⟩
        obtain ⟨r, hr, -⟩ := hover hwhat
        cases hinl.symm.trans hr
    · obtain ⟨-, hwhat, -, hresult⟩ := SessionEvent.began.inj heq
      obtain ⟨r, hr, -⟩ := hover hwhat
      cases (congrArg resultOf hr).symm.trans hresult
    · rintro n phase (hdropped | ⟨error, hreturned⟩)
      · cases hdropped
      · cases hreturned
    · cases hb : (Session.begin what w.session).1 with
      | inl phase =>
        rw [hb] at hgives
        cases hgives
      | inr r =>
        rw [hb] at hgives
        obtain ⟨hwhat, rfl⟩ := Prod.mk.inj (Option.some.inj hgives)
        obtain ⟨r, hr, hsent⟩ := hover hwhat
        exact hsent a (Sum.inr.inj (hr.symm.trans hb))

/-- What is done beside calls leaves the confirmation with whoever has it. -/
theorem confirms_of_calls {s : Session} {launching : Option LaunchSpec} {now : Nat}
    (hsent : s.initializedSent = w.session.initializedSent) (hconfirmed : s.Confirmed ↔ w.session.Confirmed)
    (he : e.isOfCall = false) : Confirms w e ⟨s, w.calls, launching, now⟩ := by
  refine .aside hsent hconfirmed (fun _ _ hn ↦ hn) (fun _ _ _ hn ↦ Or.inl hn) ?_ ?_ ?_
  · rintro n state rfl
    cases he
  · rintro n phase (rfl | ⟨error, rfl⟩) <;> cases he
  · intro a hgives
    cases e with
    | began | returned => cases he
    | _ => cases hgives

/-- Every step treats the confirmation in one of these ways. -/
theorem Step.confirms (hapt : ∀ (n : Nat) what phase, w.calls[n]? = some ⟨what, some phase⟩ → Apt what phase)
    (hspoken : w.Spoken) (hphased : w.Phased) (hstep : Step w e w') : Confirms w e w' := by
  have hgreeting : ∀ n ∈ w.session.handshake.draft?, n.message ≠ confirmation := fun n hn ↦
    Session.ne_confirmation (by rw [hspoken.handshake n hn]; exact nofun)
  have hanswer : ∀ n ∈ w.session.reply?, n.message ≠ confirmation := fun n hn ↦
    Session.ne_confirmation (by rw [hspoken.reply n hn]; exact nofun)
  have hsent (he : ∀ n what state r, e ≠ .began n what state r) :
      w'.session.initializedSent = w.session.initializedSent :=
    hstep.initializedSent.resolve_right fun ⟨_, n, state, heq⟩ ↦ he n _ state _ heq
  cases hstep with
  | begin what => exact confirms_begin what
  | @turn n what phase phase' s fs hn hturn =>
    have hgoes := Session.goes_of_turn hturn
    have hconfirmed := hgoes.confirmed (hspoken.calls n what phase hn)
    obtain ⟨-, note, hnote, -⟩ | ⟨hwhat, -⟩ := hapt n what phase hn
    · exact absurd hnote (hgoes.not_telling.1 note)
    · refine confirms_set hn hwhat ?_ (hsent (by simp)) hconfirmed (Or.inl rfl)
      rintro p ⟨⟩
      exact hgoes.not_telling.2
  | @finish n what phase r s fs hn hturn =>
    have hends := Session.ends_of_turn hturn
    obtain ⟨rfl, note, rfl, hmessage⟩ | ⟨hwhat, hphase⟩ := hapt n what phase hn
    · refine .settle hn (hsent (by simp)) rfl ((hends.of_telling hmessage).imp ?_ ?_)
      · rintro ⟨rfl, hconfirmed⟩
        exact ⟨rfl, hconfirmed⟩
      · rintro ⟨⟨error, rfl⟩, hconfirmed⟩
        exact ⟨Or.inr ⟨error, rfl⟩, hconfirmed⟩
    · have hconfirmed := hends.moves.1.mem_written
        (Session.ne_confirmation_of_worded (hspoken.calls n what phase hn) hphase)
      exact confirms_set hn hwhat nofun (hsent (by simp)) hconfirmed (Or.inr (Or.inr ⟨r, rfl⟩))
  | @drop n what phase hn =>
    have hconfirmed := Session.confirmed_drop phase w.session
    obtain ⟨rfl, note, rfl, -⟩ | ⟨hwhat, -⟩ := hapt n what phase hn
    · exact .settle hn (hsent (by simp)) rfl (Or.inr ⟨Or.inl rfl, hconfirmed⟩)
    · exact confirms_set hn hwhat nofun (hsent (by simp)) hconfirmed (Or.inr (Or.inl rfl))
  | observe =>
    refine confirms_of_calls (hsent (by simp)) ?_ rfl
    rw [Session.Confirmed, Session.Confirmed, Session.post_observe]
  | launch | pass => exact confirms_of_calls rfl .rfl rfl
  | launched started hspec =>
    have hmoves := (w.session.moves_launched started (hphased.launching _ hspec)).1
    exact confirms_of_calls (hsent (by simp)) (hmoves.mem_written nofun) rfl
  | shake hturn =>
    have hmoves := (Session.moves_handshakeTurn (Or.inl hturn)).1
    exact confirms_of_calls (hsent (by simp)) (hmoves.mem_written hgreeting) rfl
  | shaken hturn =>
    have hmoves := (Session.moves_handshakeTurn (Or.inr hturn)).1
    exact confirms_of_calls (hsent (by simp)) (hmoves.mem_written hgreeting) rfl
  | @read e c c' hclient hread he =>
    have hmoves := (Client.moves_readerTurn hread).1
    rw [← Session.post_of_client hclient, ← Session.reply?_of_client hclient] at hmoves
    refine confirms_of_calls rfl (hmoves.mem_written hanswer) ?_
    subst he
    cases c.reading <;> rfl
  | serve bytes accepts ended hclient =>
    refine confirms_of_calls rfl ?_ rfl
    rw [Session.Confirmed, Session.Confirmed, Session.post_of_client hclient]
    rfl

/-! ### What has become of it -/

/-- A call that has taken on the confirmation fails, or is given up. -/
def Failed (n : Nat) (t : List SessionEvent) : Prop :=
  ∃ before state after, t = before ++ .began n .initialized state none :: after ∧ ∃ e ∈ after, e.Fails n

theorem failed_concat {n : Nat} : Failed n (t ++ [e]) ↔
    Failed n t ∨ (∃ state, .began n .initialized state none ∈ t) ∧ e.Fails n := by
  constructor
  · rintro ⟨before, state, after, heq, e', he', hfails⟩
    rcases List.eq_nil_or_concat' after with rfl | ⟨after, last, rfl⟩
    · cases he'
    · rw [← List.cons_append, ← List.append_assoc] at heq
      obtain ⟨rfl, rfl⟩ := List.append_singleton_inj.mp heq
      rcases List.mem_append.mp he' with he' | he'
      · exact Or.inl ⟨before, state, after, rfl, e', he', hfails⟩
      · obtain rfl := List.mem_singleton.mp he'
        exact Or.inr ⟨⟨state, by simp⟩, hfails⟩
  · rintro (⟨before, state, after, rfl, e', he', hfails⟩ | ⟨⟨state, hbegan⟩, hfails⟩)
    · exact ⟨before, state, after ++ [e], by simp, e', List.mem_append_left _ he', hfails⟩
    · obtain ⟨before, after, rfl⟩ := List.append_of_mem hbegan
      exact ⟨before, state, after ++ [e], by simp, e, by simp, hfails⟩

theorem Failed.mem {n : Nat} (h : Failed n t) : ∃ state, .began n .initialized state none ∈ t := by
  obtain ⟨before, state, after, rfl, -⟩ := h
  exact ⟨state, by simp⟩

/-- The call that has taken on the confirmation decides what becomes of it. -/
inductive Decides (t : List SessionEvent) (w : SessionWorld) (n : Nat) : Prop
  /-- It waits with the confirmation. -/
  | waits (note : Note) (hn : w.calls[n]? = some ⟨.initialized, some (.telling note)⟩)
      (hnot : ¬ w.session.Confirmed) (hlives : ¬ Failed n t)
  /-- It has written the confirmation, or has failed. -/
  | decided (hn : w.calls[n]? = some ⟨.initialized, none⟩) (hiff : w.session.Confirmed ↔ ¬ Failed n t)

/-- What has become of the confirmation of the handshake. -/
structure Informed (t : List SessionEvent) (w : SessionWorld) : Prop where
  apt : ∀ (n : Nat) what phase, w.calls[n]? = some ⟨what, some phase⟩ → Apt what phase
  begun : ∀ (n : Nat) note, w.calls[n]? = some ⟨.initialized, some (.telling note)⟩ →
    ∃ state, .began n .initialized state none ∈ t
  /-- As long as nobody has taken it on, it is not written. -/
  unsent : w.session.initializedSent = false →
    ¬ w.session.Confirmed ∧ ∀ n state, .began n .initialized state none ∉ t
  /-- Only one call has taken it on. -/
  sent : w.session.initializedSent = true → ∃ n, (∃ state, .began n .initialized state none ∈ t) ∧
    (∀ m state, .began m .initialized state none ∈ t → m = n) ∧ Decides t w n

namespace Informed

theorem create : Informed [] (create key checkout options) where
  apt _ _ _ hn := absurd hn (by simp [SessionWorld.create])
  begun _ _ hn := absurd hn (by simp [SessionWorld.create])
  unsent _ := ⟨nofun, fun _ _ ↦ List.not_mem_nil⟩
  sent := nofun

/-- A call that has taken on the confirmation is the one that decides. -/
theorem decides (h : Informed t w) {n : Nat} {state : SessionState}
    (hbegan : .began n .initialized state none ∈ t) : w.session.initializedSent = true ∧
      (∀ m state, .began m .initialized state none ∈ t → m = n) ∧ Decides t w n := by
  have hsent : w.session.initializedSent = true := by
    by_contra hunsent
    exact (h.unsent (by simpa using hunsent)).2 n state hbegan
  obtain ⟨m, -, honly, hdecides⟩ := h.sent hsent
  obtain rfl := honly n state hbegan
  exact ⟨hsent, honly, hdecides⟩

/-- Nobody takes on the confirmation, and it stays with whoever has. -/
theorem aside (h : Informed t w) (hsent : w'.session.initializedSent = w.session.initializedSent)
    (hconfirmed : w'.session.Confirmed ↔ w.session.Confirmed)
    (hkept : ∀ (n : Nat) phase, w.calls[n]? = some ⟨.initialized, phase⟩ →
      w'.calls[n]? = some ⟨.initialized, phase⟩)
    (hcalls : ∀ (n : Nat) what phase, w'.calls[n]? = some ⟨what, some phase⟩ →
      w.calls[n]? = some ⟨what, some phase⟩ ∨ what ≠ .initialized ∧ ∀ note, phase ≠ .telling note)
    (hbegan : ∀ n state, e ≠ .began n .initialized state none)
    (hfails : ∀ n phase, e.Fails n → w.calls[n]? ≠ some ⟨.initialized, phase⟩) : Informed (t ++ [e]) w' := by
  have hsame n state :
      .began n .initialized state none ∈ t ++ [e] ↔ .began n .initialized state none ∈ t := by
    simp [Ne.symm (hbegan n state)]
  have hfailed {n : Nat} {phase : Option SessionPhase} (hn : w.calls[n]? = some ⟨.initialized, phase⟩) :
      Failed n (t ++ [e]) ↔ Failed n t :=
    failed_concat.trans (or_iff_left fun hfail ↦ hfails n phase hfail.2 hn)
  refine ⟨fun n what phase hn ↦ ?_, fun n note hn ↦ ?_, fun hunsent ↦ ?_, fun hsent' ↦ ?_⟩
  · exact (hcalls n what phase hn).elim (h.apt n what phase) Or.inr
  · rcases hcalls n _ _ hn with hn | ⟨hwhat, -⟩
    · simpa only [hsame] using h.begun n note hn
    · exact absurd rfl hwhat
  · simpa only [hsame, hconfirmed] using h.unsent (hsent ▸ hunsent)
  · obtain ⟨n, hbegun, honly, hdecides⟩ := h.sent (hsent ▸ hsent')
    refine ⟨n, by simpa only [hsame] using hbegun, by simpa only [hsame] using honly, ?_⟩
    cases hdecides with
    | waits note hn hnot hlives =>
      exact .waits note (hkept n _ hn) (hnot ∘ hconfirmed.mp) (hlives ∘ (hfailed hn).mp)
    | decided hn hiff =>
      exact .decided (hkept n _ hn) (hconfirmed.trans (hiff.trans (not_congr (hfailed hn).symm)))

/-- A call takes on the confirmation. -/
theorem take (h : Informed t w) {note : Note} (hsent : w.session.initializedSent = false)
    (hsent' : w'.session.initializedSent = true)
    (hconfirmed : w'.session.Confirmed ↔ w.session.Confirmed) (hmessage : note.message = confirmation)
    (hcalls : w'.calls = w.calls ++ [⟨.initialized, some (.telling note)⟩]) :
    Informed (t ++ [.began w.calls.length .initialized w.session.state none]) w' := by
  obtain ⟨hnot, hnobody⟩ := h.unsent hsent
  have hlast : ∃ state, .began w.calls.length .initialized state none ∈
      t ++ [.began w.calls.length .initialized w.session.state none] :=
    ⟨_, List.mem_append_right _ List.mem_cons_self⟩
  refine ⟨fun n what phase hn ↦ ?_, fun n note hn ↦ ?_, fun hunsent ↦ ?_, fun _ ↦ ⟨_, hlast, ?_, ?_⟩⟩
  · rw [hcalls] at hn
    rcases getElem?_concat_eq_some.mp hn with hn | ⟨-, heq⟩
    · exact h.apt n what phase hn
    · obtain ⟨rfl, hphase⟩ := SessionEntry.mk.inj heq
      exact Or.inl ⟨rfl, note, Option.some.inj hphase, hmessage⟩
  · rw [hcalls] at hn
    rcases getElem?_concat_eq_some.mp hn with hn | ⟨rfl, -⟩
    · obtain ⟨state, hbegan⟩ := h.begun n note hn
      exact absurd hbegan (hnobody n state)
    · exact hlast
  · cases hunsent.symm.trans hsent'
  · intro m state hbegan
    rcases List.mem_append.mp hbegan with hbegan | hbegan
    · exact absurd hbegan (hnobody m state)
    · exact (SessionEvent.began.inj (List.mem_singleton.mp hbegan)).1
  · refine .waits note ?_ (hnot ∘ hconfirmed.mp) fun hfailed ↦ ?_
    · rw [hcalls]
      exact getElem?_concat_eq_some.mpr (Or.inr ⟨rfl, rfl⟩)
    · obtain ⟨state, hbegan⟩ := (failed_concat.mp hfailed).elim Failed.mem And.left
      exact hnobody _ state hbegan

/-- The call that has taken on the confirmation writes it, or fails, or is given up. -/
theorem settle (h : Informed t w) {n : Nat} {note : Note}
    (hn : w.calls[n]? = some ⟨.initialized, some (.telling note)⟩)
    (hsent : w'.session.initializedSent = w.session.initializedSent)
    (hcalls : w'.calls = w.calls.set n ⟨.initialized, none⟩)
    (hend : (e = .returned n .initialized (.ok .done) ∧ w'.session.Confirmed) ∨
      e.Fails n ∧ (w'.session.Confirmed ↔ w.session.Confirmed)) : Informed (t ++ [e]) w' := by
  have hbegun := h.begun n note hn
  obtain ⟨htrue, honly, hdecides⟩ := h.decides hbegun.choose_spec
  have hsame m state :
      .began m .initialized state none ∈ t ++ [e] ↔ .began m .initialized state none ∈ t := by
    rcases hend with ⟨rfl, -⟩ | ⟨rfl | ⟨error, rfl⟩, -⟩ <;> simp
  have hold {m : Nat} {what : SessionCall} {phase : SessionPhase}
      (hm : w'.calls[m]? = some ⟨what, some phase⟩) : w.calls[m]? = some ⟨what, some phase⟩ := by
    rw [hcalls] at hm
    rcases (getElem?_set_eq_some hn).mp hm with ⟨-, heq⟩ | ⟨-, hm⟩
    · cases heq
    · exact hm
  refine ⟨fun m what phase hm ↦ h.apt m what phase (hold hm), fun m note hm ↦ ?_, fun hunsent ↦ ?_,
    fun _ ↦ ⟨n, by simpa only [hsame] using hbegun, by simpa only [hsame] using honly, .decided ?_ ?_⟩⟩
  · simpa only [hsame] using h.begun m note (hold hm)
  · cases (hsent.trans htrue).symm.trans hunsent
  · rw [hcalls]
    exact (getElem?_set_eq_some hn).mpr (Or.inl ⟨rfl, rfl⟩)
  · -- Until now the call has waited, so that this step decides.
    cases hdecides with
    | decided hover => simp [hn] at hover
    | waits _ _ hnot hlives =>
      rw [failed_concat]
      rcases hend with ⟨rfl, hconfirmed⟩ | ⟨hfails, hconfirmed⟩
      · have hok : ¬ SessionEvent.Fails n (.returned n .initialized (.ok .done)) := by
          rintro (heq | ⟨error, heq⟩) <;> cases heq
        simp [hconfirmed, hlives, hok]
      · simp [hconfirmed, hnot, hfails, hbegun]

/-- Every step that treats the confirmation keeps track of it. -/
theorem step (h : Informed t w) (hstep : Confirms w e w') : Informed (t ++ [e]) w' := by
  cases hstep with
  | aside hsent hconfirmed hkept hcalls hbegan hfails => exact h.aside hsent hconfirmed hkept hcalls hbegan hfails
  | take hsent hsent' hconfirmed hmessage hcalls => exact h.take hsent hsent' hconfirmed hmessage hcalls
  | settle hn hsent hcalls hend => exact h.settle hn hsent hcalls hend

end Informed

theorem informed_of_run (h : Run Step (create key checkout options) t w) : Informed t w :=
  h.invariant .create fun _ _ _ _ hrun hinformed hstep ↦
    hinformed.step (hstep.confirms hinformed.apt (spoken_of_run hrun) (lived_of_run hrun).phased)

end SessionWorld

end CodeNav
