import CodeNav.Proofs.Server.Post

/-!
# The order of messages to a server

The messages that were written, and those that wait in the order in which their writers have queued up,
make one sequence: who queues up adds to its end, and who writes leaves it as it is. What is true of the
whole sequence is therefore true of what was written, whatever waits.

## Main definitions

* `Post.Lined`: those who wait, in the order of the queue
* `Post.letters`, `Post.kinds`: the messages that were written, and those that wait
* `MessageKind.InOrder`: the order that a server may expect of the kinds of its messages

## Main statements

* `Post.Lined.moves`, `Post.Lined.moves_kinds`: the writers keep the sequence, or add to its end
* `MessageKind.InOrder.concat`: which kinds may be added
-/

namespace CodeNav

/-! ### The queue -/

namespace Post

variable {p p' : Post} {d d' : Option Note} {waiting drafts rest : List Note}

/-- Those who wait with a message, in the order of the queue. -/
structure Lined (p : Post) (waiting drafts : List Note) : Prop where
  queue : waiting.map Note.ticket = p.queue.queue
  wellFormed : p.queue.WellFormed
  perm : waiting.Perm drafts

/-- The messages that were written, and those that wait. -/
def letters (p : Post) (waiting : List Note) : List Json :=
  p.written ++ waiting.map Note.message

theorem lined_fresh : fresh.Lined [] [] := ⟨rfl, FairLock.wellFormed_free, .refl _⟩

theorem Lined.of_perm (h : p.Lined waiting drafts) (hperm : drafts.Perm rest) :
    p.Lined waiting rest :=
  ⟨h.queue, h.wellFormed, h.perm.trans hperm⟩

/-- Whoever holds the writer waits with the first message. -/
theorem Lined.eq_cons (h : p.Lined waiting (n :: rest)) (hholder : p.queue.isHolder n.ticket = true) :
    ∃ later, waiting = n :: later ∧ later.Perm rest := by
  have hhead : p.queue.queue.head? = some n.ticket := by simpa [FairLock.isHolder] using hholder
  rw [← h.queue, List.head?_map] at hhead
  obtain ⟨first, hfirst, hticket⟩ := Option.map_eq_some_iff.mp hhead
  obtain ⟨later, rfl⟩ := List.head?_eq_some_iff.mp hfirst
  have hnodup : ((first :: later).map Note.ticket).Nodup := h.queue ▸ h.wellFormed.nodup
  -- Tickets are different, so that the first of those who wait is the holder.
  have hmem : n ∈ first :: later := h.perm.mem_iff.mpr List.mem_cons_self
  have heq : first = n := List.inj_on_of_nodup_map hnodup List.mem_cons_self hmem hticket
  subst heq
  exact ⟨later, rfl, (List.perm_cons first).mp h.perm⟩

/-- Who queues up adds a message to the end of the sequence. -/
theorem Lined.enter {n : Note} (h : p.Lined waiting rest) (hmoves : p.Moves none (some n) p') :
    p'.Lined (waiting ++ [n]) (n :: rest) ∧ p'.accepts = p.accepts ∧
      p'.letters (waiting ++ [n]) = p.letters waiting ++ [n.message] := by
  cases hmoves with
  | enter message =>
    refine ⟨⟨?_, h.wellFormed.enter, ?_⟩, rfl, by simp [letters, Post.enter]⟩
    · rw [List.map_append, h.queue]
      rfl
    · exact (List.perm_append_comm ..).trans (h.perm.cons _)

/-- Who leaves the queue does not wait any more. -/
theorem Lined.depart {n : Note} (h : p.Lined waiting (n :: rest)) :
    ∃ waiting', (p.leave n.ticket).Lined waiting' rest := by
  obtain ⟨before, after, rfl⟩ := List.append_of_mem (h.perm.mem_iff.mpr List.mem_cons_self)
  have hqueue := h.queue
  have hnodup := h.wellFormed.nodup
  rw [← hqueue, List.map_append, List.map_cons] at hnodup
  have hnot : n.ticket ∉ before.map Note.ticket := fun hmem ↦
    (List.nodup_append.mp hnodup).2.2 _ hmem _ List.mem_cons_self rfl
  refine ⟨before ++ after, ⟨?_, h.wellFormed.leave n.ticket, ?_⟩⟩
  · simp [Post.leave, FairLock.leave, ← hqueue, List.erase_append_right _ hnot]
  · exact (List.perm_cons n).mp (List.perm_middle.symm.trans h.perm)

/-- A writer keeps those in line who wait, whether or not the server takes messages. -/
theorem Lined.shift (h : p.Lined waiting (d.toList ++ rest)) (hmoves : p.Moves d d' p') :
    ∃ waiting', p'.Lined waiting' (d'.toList ++ rest) := by
  cases hmoves with
  | stay => exact ⟨waiting, h⟩
  | enter message => exact ⟨_, (Lined.enter h (.enter message)).1⟩
  | @write d hholder =>
    obtain ⟨waiting', hleft⟩ := Lined.depart (n := d) h
    exact ⟨waiting', hleft.queue, hleft.wellFormed, hleft.perm⟩
  | @fail d hholder => exact Lined.depart (n := d) h

/-- A writer keeps the sequence of messages, or adds its own to the end. -/
theorem Lined.moves (h : p.Lined waiting (d.toList ++ rest)) (haccepts : p.accepts = true)
    (hmoves : p.Moves d d' p') :
    ∃ waiting', p'.Lined waiting' (d'.toList ++ rest) ∧ p'.accepts = true ∧
      (p'.letters waiting' = p.letters waiting ∨
        ∃ n, d = none ∧ d' = some n ∧ p'.letters waiting' = p.letters waiting ++ [n.message]) := by
  cases hmoves with
  | stay => exact ⟨waiting, h, haccepts, Or.inl rfl⟩
  | enter message =>
    obtain ⟨hlined, haccepts', hletters⟩ := Lined.enter h (.enter message)
    exact ⟨_, hlined, haccepts'.trans haccepts, Or.inr ⟨_, rfl, rfl, hletters⟩⟩
  | @write d hholder =>
    obtain ⟨later, rfl, hperm⟩ := h.eq_cons hholder
    have hqueue : p.queue.queue = d.ticket :: later.map Note.ticket := h.queue.symm
    refine ⟨later, ⟨?_, h.wellFormed.leave d.ticket, hperm⟩, haccepts, Or.inl ?_⟩
    · simp [write, leave, FairLock.leave, hqueue]
    · simp [letters, write, leave]
  | fail hholder hrefuses => simp [haccepts] at hrefuses

end Post

/-! ### Kinds of messages -/

namespace MessageKind

variable {ks : List MessageKind} {k : MessageKind} {settled confirmed confirmed' : Bool}

/-- Whether a message tells the text of a document. -/
def isText : MessageKind → Bool
  | text _ => true
  | _ => false

/-- The order that a server may expect of the kinds of its messages, but for answers; `settled` tells
whether the handshake has ended well, and `confirmed` whether somebody has taken on to tell the
server. -/
structure InOrder (ks : List MessageKind) (settled confirmed : Bool) : Prop where
  greeted : ks = [] ∨ ∃ later, ks = greeting :: later ∧ greeting ∉ later
  quiet : settled = false → ∀ k ∈ ks.tail, k = farewell
  once : ks.count confirmation ≤ confirmed.toNat
  sent : confirmed = true → confirmation ∈ ks
  told : ∀ before k after, ks = before ++ k :: after → k.isText = true → confirmation ∈ before

namespace InOrder

theorem nil : InOrder [] settled false :=
  ⟨Or.inl rfl, fun _ ↦ nofun, Nat.le_refl _, nofun, by simp⟩

/-- The handshake begins with the greeting. -/
theorem greet : InOrder [greeting] settled false :=
  ⟨Or.inr ⟨[], rfl, nofun⟩, fun _ ↦ nofun, Nat.le_refl _, nofun, fun before k after h hk ↦ by
    cases before with
    | nil =>
      obtain ⟨rfl, -⟩ := List.cons.inj h
      cases hk
    | cons => simp at h⟩

/-- Once the handshake has ended well, everything may be said. -/
theorem settle (h : InOrder ks settled confirmed) : InOrder ks true confirmed :=
  ⟨h.greeted, nofun, h.once, h.sent, h.told⟩

/-- Which kinds of messages may be added. -/
theorem concat (h : InOrder ks settled confirmed) (hne : ks ≠ []) (hgreeting : k ≠ greeting)
    (hquiet : settled = false → k = farewell)
    (hsame : k ≠ confirmation → confirmed' = confirmed)
    (honce : k = confirmation → confirmed = false ∧ confirmed' = true)
    (htext : k.isText = true → confirmed = true) : InOrder (ks ++ [k]) settled confirmed' := by
  obtain ⟨later, rfl, hlater⟩ := h.greeted.resolve_left hne
  refine ⟨Or.inr ⟨later ++ [k], rfl, by simp [hlater, Ne.symm hgreeting]⟩, fun hsettled j hj ↦ ?_, ?_,
    ?_, fun before j after heq hj ↦ ?_⟩
  · rcases List.mem_append.mp hj with hj | hj
    · exact h.quiet hsettled j hj
    · rw [List.mem_singleton.mp hj]
      exact hquiet hsettled
  · have hcount := h.once
    rw [List.count_append]
    by_cases hk : k = confirmation
    · obtain ⟨rfl, rfl⟩ := honce hk
      subst hk
      simpa using hcount
    · rw [hsame hk, List.count_singleton]
      simpa [hk] using hcount
  · intro hconfirmed
    by_cases hk : k = confirmation
    · simp [hk]
    · exact List.mem_append_left _ (h.sent ((hsame hk).symm.trans hconfirmed))
  · rcases List.eq_nil_or_concat' after with rfl | ⟨after, last, rfl⟩
    · obtain ⟨rfl, rfl⟩ := List.append_singleton_inj.mp heq
      exact h.sent (htext hj)
    · have heq' : greeting :: later ++ [k] = (before ++ j :: after) ++ [last] := by simpa using heq
      exact h.told before j after (List.append_singleton_inj.mp heq').1 hj

end InOrder

end MessageKind

/-! ### The kinds of the sequence -/

namespace Post

variable {p p' : Post} {d d' : Option Note} {waiting rest : List Note}

/-- The kinds of the messages that were written and of those that wait, but for answers. -/
def kinds (p : Post) (waiting : List Note) : List MessageKind :=
  ((p.letters waiting).map MessageKind.of).filter (· ≠ .answer)

theorem kinds_of_letters {more : List Note} (h : p'.letters more = p.letters waiting) :
    p'.kinds more = p.kinds waiting := by
  rw [kinds, kinds, h]

/-- A message that is added is no answer, or is not counted. -/
theorem kinds_concat {more : List Note} {m : Json} (h : p'.letters more = p.letters waiting ++ [m]) :
    (MessageKind.of m = .answer ∧ p'.kinds more = p.kinds waiting) ∨
      (MessageKind.of m ≠ .answer ∧ p'.kinds more = p.kinds waiting ++ [MessageKind.of m]) := by
  rw [kinds, kinds, h, List.map_append, List.filter_append]
  by_cases hm : MessageKind.of m = .answer
  · exact Or.inl ⟨hm, by simp [hm]⟩
  · exact Or.inr ⟨hm, by simp [hm]⟩

/-- A writer keeps the kinds of messages, or adds its own to the end. -/
theorem Lined.moves_kinds (h : p.Lined waiting (d.toList ++ rest)) (haccepts : p.accepts = true)
    (hmoves : p.Moves d d' p') :
    ∃ waiting', p'.Lined waiting' (d'.toList ++ rest) ∧ p'.accepts = true ∧
      (p'.kinds waiting' = p.kinds waiting ∨
        ∃ n, d = none ∧ d' = some n ∧ MessageKind.of n.message ≠ .answer ∧
          p'.kinds waiting' = p.kinds waiting ++ [MessageKind.of n.message]) := by
  obtain ⟨waiting', hlined, haccepts', hsame | ⟨n, hd, hd', hmore⟩⟩ := h.moves haccepts hmoves
  · exact ⟨waiting', hlined, haccepts', Or.inl (kinds_of_letters hsame)⟩
  · refine ⟨waiting', hlined, haccepts', (kinds_concat hmore).imp And.right fun hkind ↦ ?_⟩
    exact ⟨n, hd, hd', hkind⟩

end Post

/-! ### What may be said -/

/-- How far things have come with a server. -/
structure Rapport where
  /-- Whether there is one. -/
  met : Bool
  /-- Whether the handshake has gone well. -/
  settled : Bool
  /-- Whether somebody has taken on to confirm it. -/
  confirmed : Bool

/-- A kind of messages of which one more may be sent at any time. -/
structure Rapport.Admits (r : Rapport) (k : MessageKind) : Prop where
  met : r.met = true
  not_greeting : k ≠ .greeting
  not_confirmation : k ≠ .confirmation
  quiet : r.settled = false → k = .farewell
  text : k.isText = true → r.confirmed = true

theorem Rapport.admits_farewell {r : Rapport} (hmet : r.met = true) : r.Admits .farewell :=
  ⟨hmet, nofun, nofun, fun _ ↦ rfl, nofun⟩

theorem Rapport.admits_question {r : Rapport} (hmet : r.met = true) (hsettled : r.settled = true) :
    r.Admits .question :=
  ⟨hmet, nofun, nofun, fun h ↦ absurd (hsettled.symm.trans h) nofun, nofun⟩

theorem Rapport.admits_text {r : Rapport} (uri : Option String) (hmet : r.met = true)
    (hsettled : r.settled = true) (hconfirmed : r.confirmed = true) : r.Admits (.text uri) :=
  ⟨hmet, nofun, nofun, fun h ↦ absurd (hsettled.symm.trans h) nofun, fun _ ↦ hconfirmed⟩

namespace Post

variable {p p' : Post} {r : Rapport} {d d' : Option Note} {waiting drafts rest : List Note}

/-- Messages wait in the order of the queue, all of them are taken, and they are in order. -/
structure Courteous (p : Post) (r : Rapport) (drafts waiting : List Note) : Prop where
  lined : p.Lined waiting drafts
  accepts : p.accepts = true
  inOrder : MessageKind.InOrder (p.kinds waiting) r.settled r.confirmed
  greeted : r.met = true → p.kinds waiting ≠ []

namespace Courteous

theorem of_perm (h : p.Courteous r drafts waiting) (hperm : drafts.Perm rest) :
    p.Courteous r rest waiting :=
  ⟨h.lined.of_perm hperm, h.accepts, h.inOrder, h.greeted⟩

/-- Once the handshake has gone well, everything may be said. -/
theorem settle (h : p.Courteous r drafts waiting) :
    p.Courteous { r with settled := true } drafts waiting :=
  ⟨h.lined, h.accepts, h.inOrder.settle, h.greeted⟩

/-- Writers keep messages in order as long as they add what may be said. -/
theorem moves (h : p.Courteous r (d.toList ++ rest) waiting) (hmoves : p.Moves d d' p')
    (hadds : ∀ n, d = none → d' = some n → MessageKind.of n.message ≠ .answer →
      r.Admits (MessageKind.of n.message)) :
    ∃ waiting', p'.Courteous r (d'.toList ++ rest) waiting' := by
  obtain ⟨waiting', hlined, haccepts, hsame | ⟨n, hd, hd', hanswer, hmore⟩⟩ :=
    h.lined.moves_kinds h.accepts hmoves
  · exact ⟨waiting', hlined, haccepts, hsame ▸ h.inOrder, hsame ▸ h.greeted⟩
  · have hadmits := hadds n hd hd' hanswer
    refine ⟨waiting', hlined, haccepts, ?_, by simp [hmore]⟩
    rw [hmore]
    exact h.inOrder.concat (h.greeted hadmits.met) hadmits.not_greeting hadmits.quiet (fun _ ↦ rfl)
      (fun hk ↦ absurd hk hadmits.not_confirmation) hadmits.text

/-- Whoever takes on to confirm the handshake is the first to do so. -/
theorem confirm (h : p.Courteous r rest waiting) {n : Note} (hmoves : p.Moves none (some n) p')
    (hkind : MessageKind.of n.message = .confirmation) (hmet : r.met = true)
    (hsettled : r.settled = true) (hconfirmed : r.confirmed = false) :
    ∃ waiting', p'.Courteous { r with confirmed := true } (n :: rest) waiting' := by
  obtain ⟨hlined, haccepts, hletters⟩ := h.lined.enter hmoves
  obtain ⟨hanswer, -⟩ | ⟨-, hkinds⟩ := kinds_concat hletters
  · simp [hkind] at hanswer
  · refine ⟨_, hlined, haccepts.trans h.accepts, ?_, by simp [hkinds]⟩
    rw [hkinds, hkind]
    exact h.inOrder.concat (h.greeted hmet) nofun (fun h ↦ absurd (hsettled.symm.trans h) nofun)
      (fun hk ↦ absurd rfl hk) (fun _ ↦ ⟨hconfirmed, rfl⟩) nofun

/-- The first message to a server is the greeting. -/
theorem greet (h : fresh.Courteous r rest waiting) {n : Note} (hmoves : fresh.Moves none (some n) p')
    (hkind : MessageKind.of n.message = .greeting) :
    ∃ waiting', p'.Courteous { r with met := true } (n :: rest) waiting' := by
  obtain ⟨hlined, haccepts, hletters⟩ := h.lined.enter hmoves
  obtain rfl : waiting = [] := List.map_eq_nil_iff.mp h.lined.queue
  have hconfirmed : r.confirmed = false := by
    by_contra hconfirmed
    exact absurd (h.inOrder.sent (by simpa using hconfirmed)) nofun
  obtain ⟨hanswer, -⟩ | ⟨-, hkinds⟩ := kinds_concat hletters
  · simp [hkind] at hanswer
  · refine ⟨_, hlined, haccepts.trans h.accepts, ?_, fun _ ↦ ?_⟩
    · rw [hkinds, hkind, hconfirmed]
      exact .greet
    · rw [hkinds]
      simp

end Courteous

end Post

end CodeNav
