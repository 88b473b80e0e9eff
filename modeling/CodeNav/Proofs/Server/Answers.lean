import CodeNav.Proofs.Server.Requests
import Mathlib.Data.List.Nodup

/-!
# Every request gets its own answer

What a client knows of a request agrees at any time with what was seen since the request was made:
it waits as long as no message has answered it and the server's output has not ended, and once a
message has come, that message is its answer. Every step of callers, reader and server keeps this, so
that what a request returns can be read off the history.

## Main definitions

* `Exchange.Known`: a request of which the client knows what was seen
* `Exchange.Matched`: the invariant of an exchange
* `Exchange.Faithful`: what callers may rely on

## Main statements

* `Exchange.Matched.step`: every step keeps the invariant
* `Exchange.faithful_of_run`: callers may rely on it in every run
-/

namespace CodeNav

namespace Exchange

variable {w w' : Exchange} {t later : List RequestEvent} {e : RequestEvent} {c c' : Client}
  {n id : Nat} {r r' : ServerCall}

/-! ### One request -/

/-- What a client knows of a request that is under way agrees with what was seen since it was
made. -/
structure Known (c : Client) (n : Nat) (r : ServerCall) (later : List RequestEvent) : Prop where
  number : r.id = n + 1
  pending : n + 1 ∈ c.pending ↔ settlement (n + 1) later = none
  answer : c.answers.lookup (n + 1) = (settlement (n + 1) later).join
  written : ∀ deadline, r = .awaiting r.id r.method r.limit deadline →
    ∃ start, .written n start ∈ later ∧ deadline = r.limit.map (start + ·)

theorem settlement_concat (id : Nat) (later : List RequestEvent) (e : RequestEvent) :
    settlement id (later ++ [e]) = (settlement id later).or (e.settles id) := by
  simp [settlement, List.findSome?_append, List.findSome?_cons]
  cases e.settles id <;> rfl

theorem settlement_concat_of_none (later : List RequestEvent) (h : e.settles id = none) :
    settlement id (later ++ [e]) = settlement id later := by
  rw [settlement_concat, h, Option.or_none]

namespace Known

/-- What was seen last is no concern of the request, and the client still knows the same of it. -/
theorem keep (h : Known c n r later) (hsettles : e.settles (n + 1) = none)
    (hpending : n + 1 ∈ c'.pending ↔ n + 1 ∈ c.pending)
    (hanswer : c'.answers.lookup (n + 1) = c.answers.lookup (n + 1)) :
    Known c' n r (later ++ [e]) where
  number := h.number
  pending := by rw [settlement_concat_of_none later hsettles, hpending, h.pending]
  answer := by rw [settlement_concat_of_none later hsettles, hanswer, h.answer]
  written deadline hr := by
    obtain ⟨start, hstart, hdeadline⟩ := h.written deadline hr
    exact ⟨start, List.mem_append_left _ hstart, hdeadline⟩

theorem alike (h : Known c n r later) (hsettles : e.settles (n + 1) = none) (hc : c.Alike c') :
    Known c' n r (later ++ [e]) :=
  h.keep hsettles (by rw [hc.pending]) (by rw [hc.answers])

theorem congr (h : Known c n r later) (hc : c.Alike c') : Known c' n r later :=
  ⟨h.number, by rw [hc.pending, h.pending], by rw [hc.answers, h.answer], h.written⟩

/-- The request was written. -/
theorem write (h : Known c n r later) (hc : c.Alike c') (now : Nat) :
    Known c' n (.awaiting r.id r.method r.limit (r.limit.map (now + ·)))
      (later ++ [.written n now]) where
  number := h.number
  pending := (h.alike (e := .written n now) rfl hc).pending
  answer := (h.alike (e := .written n now) rfl hc).answer
  written deadline hr := by
    obtain ⟨-, -, -, rfl⟩ := ServerCall.awaiting.inj hr
    exact ⟨now, by simp, rfl⟩

/-- A message was heard, which may be the answer. -/
theorem handle (h : Known c n r later) (m : Json) : Known (c.handle m) n r (later ++ [.heard m]) where
  number := h.number
  pending := by
    rw [(c.handles m).mem_pending, settlement_concat, h.pending, Option.or_eq_none_iff]
    simp [RequestEvent.settles]
  answer := by
    have hpending := h.pending
    rw [(c.handles m).lookup_answers, settlement_concat, h.answer]
    cases hs : settlement (n + 1) later with
    | none =>
      simp only [hs, iff_true] at hpending
      by_cases hm : Client.answered? m = some ((n + 1 : Nat) : Int)
      · rw [RequestEvent.settles, if_pos hm, if_pos ⟨hm, hpending⟩]
        rfl
      · rw [RequestEvent.settles, if_neg hm, if_neg fun h ↦ hm h.1]
        rfl
    | some x =>
      simp only [hs, reduceCtorEq, iff_false] at hpending
      simp [hpending]
  written deadline hr := by
    obtain ⟨start, hstart, hdeadline⟩ := h.written deadline hr
    exact ⟨start, List.mem_append_left _ hstart, hdeadline⟩

/-- The server's output has ended. -/
theorem close (h : Known c n r later) : Known c.close n r (later ++ [.ended]) where
  number := h.number
  pending := by
    rw [settlement_concat]
    cases settlement (n + 1) later <;> simp [RequestEvent.settles, Client.close]
  answer := by
    rw [settlement_concat]
    have := h.answer
    cases hs : settlement (n + 1) later <;>
      simpa [RequestEvent.settles, Client.close, hs] using this
  written deadline hr := by
    obtain ⟨start, hstart, hdeadline⟩ := h.written deadline hr
    exact ⟨start, List.mem_append_left _ hstart, hdeadline⟩

end Known

/-! ### All requests -/

/-- The invariant of an exchange: the client knows of the requests that are under way what was seen
of them, and of no other request. -/
structure Matched (t : List RequestEvent) (w : Exchange) : Prop where
  next : w.client.nextId = w.requests.length + 1
  begins : t.filterMap RequestEvent.begins = List.range w.requests.length
  numbers : t.filterMap RequestEvent.numbers = (List.range w.requests.length).map (· + 1)
  gone : ∀ n, w.requests[n]? = some none ↔ ∃ e ∈ t, e.closes = some n
  ended : w.client.closed = true ↔ .ended ∈ t
  silent : w.client.closed = true → w.client.pending = []
  live : ∀ n r, w.requests[n]? = some (some r) → ∃ first later,
    t = first ++ .asked n (n + 1) r.method r.limit :: later ∧ Known w.client n r later
  unknown : ∀ id, (∀ n r, w.requests[n]? = some (some r) → n + 1 ≠ id) →
    id ∉ w.client.pending ∧ w.client.answers.lookup id = none
  nodup : w.client.pending.Nodup

/-- A client that was just started knows of no request. -/
theorem matched_start {root : Path} {limit : Option Nat} (h : Client.start root limit = .ok c) :
    Matched [] (start c) := by
  obtain ⟨hnext, hpending, hanswers, hopen⟩ := Client.of_start h
  exact
    { next := hnext
      begins := rfl
      numbers := rfl
      gone := by simp [start]
      ended := by simp [start, hopen]
      silent := fun _ ↦ hpending
      live := by simp [start]
      unknown := by simp [start, hpending, hanswers]
      nodup := by simp [start, hpending] }

namespace Matched

/-- An event that is no concern of any request. -/
structure Aside (e : RequestEvent) : Prop where
  begins : e.begins = none
  numbers : e.numbers = none
  closes : e.closes = none
  settles : ∀ id, e.settles id = none

theorem aside_other : Aside .other := ⟨rfl, rfl, rfl, fun _ ↦ rfl⟩

theorem aside_refused (e : SessionError) : Aside (.refused e) := ⟨rfl, rfl, rfl, fun _ ↦ rfl⟩

/-- Nothing has happened that concerns the requests. -/
theorem aside (h : Matched t w) (he : Aside e) (hc : w.client.Alike c)
    (notes : List (Option Note)) (now : Nat) :
    Matched (t ++ [e]) { w with client := c, notes := notes, now := now } where
  next := by rw [hc.nextId, h.next]
  begins := by simp [List.filterMap_append, he.begins, h.begins]
  numbers := by simp [List.filterMap_append, he.numbers, h.numbers]
  gone n := by simp [he.closes, h.gone n, or_and_right, exists_or]
  ended := by
    have hne : RequestEvent.ended ≠ e := by
      rintro rfl
      exact absurd (he.settles 0) (by simp [RequestEvent.settles])
    rw [hc.closed, h.ended, List.mem_append, List.mem_singleton]
    exact ⟨Or.inl, fun hmem ↦ hmem.resolve_right hne⟩
  silent hclosed := by
    rw [hc.pending]
    exact h.silent (hc.closed ▸ hclosed)
  live n r hn := by
    obtain ⟨first, later, rfl, hknown⟩ := h.live n r hn
    exact ⟨first, later ++ [e], by simp, hknown.alike (he.settles _) hc⟩
  unknown id hid := by
    rw [hc.pending, hc.answers]
    exact h.unknown id hid
  nodup := by
    rw [hc.pending]
    exact h.nodup

/-- Nothing has been given to the client's next number yet. -/
theorem next_unknown (h : Matched t w) :
    w.requests.length + 1 ∉ w.client.pending ∧
      w.client.answers.lookup (w.requests.length + 1) = none := by
  refine h.unknown _ fun n r hn heq ↦ ?_
  have := (List.getElem?_eq_some_iff.mp hn).1
  omega

/-- A request is made. -/
theorem ask (h : Matched t w) {method : String} {params : Json} {limit : Option Nat}
    (hr : ServerCall.start method params limit w.client = .ok (r, c)) :
    Matched (t ++ [.asked w.requests.length r.id method limit])
      { w with client := c, requests := w.requests ++ [some r] } := by
  obtain ⟨hopen, hnext, hpending, hanswers, hopen', ticket, rfl⟩ := ServerCall.start_eq_ok hr
  rw [h.next] at hnext hpending ⊢
  have hnever : RequestEvent.ended ∉ t := fun hmem ↦ by
    rw [← h.ended, hopen] at hmem
    simp at hmem
  refine ⟨?_, ?_, ?_, ?_, ?_, ?_, ?_, ?_, ?_⟩
  · simp [hnext]
  · simp [List.filterMap_append, RequestEvent.begins, h.begins, List.range_succ]
  · simp [List.filterMap_append, RequestEvent.numbers, h.numbers, List.range_succ,
      ServerCall.id]
  · intro n
    constructor
    · intro hn
      rcases getElem?_concat_eq_some.mp hn with hn | ⟨-, hn⟩
      · obtain ⟨d, hd, hclose⟩ := (h.gone n).mp hn
        exact ⟨d, List.mem_append_left _ hd, hclose⟩
      · simp at hn
    · rintro ⟨d, hd, hclose⟩
      rcases List.mem_append.mp hd with hd | hd
      · exact getElem?_concat_eq_some.mpr (Or.inl ((h.gone n).mpr ⟨d, hd, hclose⟩))
      · obtain rfl := List.mem_singleton.mp hd
        simp [RequestEvent.closes] at hclose
  · simp [hopen', hnever]
  · intro hclosed
    exact absurd (hopen'.symm.trans hclosed) (by simp)
  · intro n r' hn
    rcases getElem?_concat_eq_some.mp hn with hn | ⟨rfl, hnew⟩
    · obtain ⟨first, later, rfl, hknown⟩ := h.live n r' hn
      refine ⟨first, later ++ [_], by rw [List.append_assoc]; rfl, hknown.keep rfl ?_ ?_⟩
      · rw [hpending, List.mem_append, List.mem_singleton]
        have := (List.getElem?_eq_some_iff.mp hn).1
        refine ⟨fun hmem ↦ hmem.resolve_right ?_, Or.inl⟩
        omega
      · rw [hanswers]
    · -- The request itself waits, and nothing has been seen since.
      obtain rfl := Option.some.inj hnew
      refine ⟨t, [], rfl, rfl, ?_, ?_, ?_⟩
      · simp [hpending, settlement]
      · rw [hanswers, h.next_unknown.2]
        rfl
      · intro deadline hwritten
        simp at hwritten
  · intro id hid
    have hne : id ≠ w.requests.length + 1 := by
      rintro rfl
      exact hid w.requests.length _ List.getElem?_concat_length rfl
    have hold := h.unknown id fun n r' hn ↦
      hid n r' (getElem?_concat_eq_some.mpr (Or.inl hn))
    rw [hpending, hanswers, List.mem_append, List.mem_singleton]
    exact ⟨fun hmem ↦ hmem.elim hold.1 hne, hold.2⟩
  · rw [hpending]
    refine h.nodup.append (List.nodup_singleton _) ?_
    rw [List.disjoint_singleton]
    exact h.next_unknown.1

/-- A request was written. -/
theorem write (h : Matched t w) (hn : w.requests[n]? = some (some r)) (hc : w.client.Alike c) :
    Matched (t ++ [.written n w.now])
      { w with
        client := c
        requests :=
          w.requests.set n (some (.awaiting r.id r.method r.limit (r.limit.map (w.now + ·)))) } := by
  refine ⟨?_, ?_, ?_, ?_, ?_, ?_, ?_, ?_, ?_⟩
  · simp [hc.nextId, h.next]
  · simp [List.filterMap_append, RequestEvent.begins, h.begins]
  · simp [List.filterMap_append, RequestEvent.numbers, h.numbers]
  · intro m
    have hkept : w.requests[m]? = some none → m ≠ n := by
      rintro hm rfl
      simp [hn] at hm
    rw [getElem?_set_eq_some hn]
    constructor
    · rintro (⟨-, hm⟩ | ⟨-, hm⟩)
      · simp at hm
      · obtain ⟨d, hd, hclose⟩ := (h.gone m).mp hm
        exact ⟨d, List.mem_append_left _ hd, hclose⟩
    · rintro ⟨d, hd, hclose⟩
      rcases List.mem_append.mp hd with hd | hd
      · have hm := (h.gone m).mpr ⟨d, hd, hclose⟩
        exact Or.inr ⟨hkept hm, hm⟩
      · obtain rfl := List.mem_singleton.mp hd
        simp [RequestEvent.closes] at hclose
  · simp [hc.closed, h.ended]
  · intro hclosed
    rw [hc.pending]
    exact h.silent (hc.closed ▸ hclosed)
  · intro m r' hm
    rcases (getElem?_set_eq_some hn).mp hm with ⟨rfl, hr⟩ | ⟨-, hm⟩
    · obtain ⟨first, later, rfl, hknown⟩ := h.live m r hn
      obtain rfl := Option.some.inj hr
      exact ⟨first, later ++ [.written m w.now], by simp [ServerCall.method, ServerCall.limit],
        hknown.write hc w.now⟩
    · obtain ⟨first, later, rfl, hknown⟩ := h.live m r' hm
      exact ⟨first, later ++ [.written n w.now], by simp, hknown.alike rfl hc⟩
  · intro id hid
    rw [hc.pending, hc.answers]
    refine h.unknown id fun m r' hm ↦ ?_
    by_cases hmn : m = n
    · exact hid m _ ((getElem?_set_eq_some hn).mpr (Or.inl ⟨hmn, rfl⟩))
    · exact hid m r' ((getElem?_set_eq_some hn).mpr (Or.inr ⟨hmn, hm⟩))
  · rw [hc.pending]
    exact h.nodup

/-- A request is over, and the client has forgotten it. -/
theorem leave (h : Matched t w) (hn : w.requests[n]? = some (some r)) (hc : w.client.Alike c)
    (hbegins : e.begins = none) (hnumbers : e.numbers = none) (hcloses : e.closes = some n)
    (hsettles : ∀ id, e.settles id = none) :
    Matched (t ++ [e])
      { w with client := ServerCall.forget c r.id, requests := w.requests.set n none } := by
  have hid : r.id = n + 1 := by
    obtain ⟨_, _, -, hknown⟩ := h.live n r hn
    exact hknown.number
  rw [hid]
  refine ⟨?_, ?_, ?_, ?_, ?_, ?_, ?_, ?_, ?_⟩
  · simp [ServerCall.forget, hc.nextId, h.next]
  · simp [List.filterMap_append, hbegins, h.begins]
  · simp [List.filterMap_append, hnumbers, h.numbers]
  · intro m
    rw [getElem?_set_eq_some hn]
    constructor
    · rintro (⟨rfl, -⟩ | ⟨-, hm⟩)
      · exact ⟨e, by simp, hcloses⟩
      · obtain ⟨d, hd, hclose⟩ := (h.gone m).mp hm
        exact ⟨d, List.mem_append_left _ hd, hclose⟩
    · rintro ⟨d, hd, hclose⟩
      by_cases hmn : m = n
      · exact Or.inl ⟨hmn, rfl⟩
      · rcases List.mem_append.mp hd with hd | hd
        · exact Or.inr ⟨hmn, (h.gone m).mpr ⟨d, hd, hclose⟩⟩
        · obtain rfl := List.mem_singleton.mp hd
          exact absurd (Option.some.inj (hclose.symm.trans hcloses)) hmn
  · have hne : RequestEvent.ended ≠ e := by
      rintro rfl
      simp [RequestEvent.closes] at hcloses
    simp [ServerCall.forget, hc.closed, h.ended, hne]
  · intro hclosed
    simp only [ServerCall.forget] at hclosed ⊢
    rw [hc.pending, h.silent (hc.closed ▸ hclosed)]
    rfl
  · intro m r' hm
    rcases (getElem?_set_eq_some hn).mp hm with ⟨-, hr⟩ | ⟨hmn, hm⟩
    · simp at hr
    · obtain ⟨first, later, rfl, hknown⟩ := h.live m r' hm
      refine ⟨first, later ++ [e], by simp, hknown.keep (hsettles _) ?_ ?_⟩
      · rw [ServerCall.mem_pending_forget, hc.pending]
        exact and_iff_left fun heq ↦ hmn (Nat.succ.inj heq)
      · rw [ServerCall.lookup_answers_forget, hc.answers,
          if_neg fun heq ↦ hmn (Nat.succ.inj heq)]
  · intro id hunknown
    rw [ServerCall.mem_pending_forget, ServerCall.lookup_answers_forget, hc.pending, hc.answers]
    by_cases hidn : id = n + 1
    · simp [hidn]
    · rw [if_neg hidn]
      have hold := h.unknown id fun m r' hm heq ↦ by
        have hmn : m ≠ n := by
          rintro rfl
          exact hidn heq.symm
        exact hunknown m r' ((getElem?_set_eq_some hn).mpr (Or.inr ⟨hmn, hm⟩)) heq
      exact ⟨fun hmem ↦ hold.1 hmem.1, hold.2⟩
  · simp only [ServerCall.forget]
    rw [hc.pending]
    exact h.nodup.filter _

/-- The reader has taken a message. -/
theorem hear (h : Matched t w) (hc : w.client.Alike c) (m : Json) :
    Matched (t ++ [.heard m]) { w with client := c.handle m } := by
  have hhandles := c.handles m
  have hsub := hhandles.sublist_pending
  refine ⟨?_, ?_, ?_, ?_, ?_, ?_, ?_, ?_, ?_⟩
  · rw [hhandles.nextId, hc.nextId, h.next]
  · simp [List.filterMap_append, RequestEvent.begins, h.begins]
  · simp [List.filterMap_append, RequestEvent.numbers, h.numbers]
  · intro n
    simp [RequestEvent.closes, h.gone n, or_and_right, exists_or]
  · simp [hhandles.closed, hc.closed, h.ended]
  · intro hclosed
    rw [hhandles.closed, hc.closed] at hclosed
    rw [hc.pending, h.silent hclosed] at hsub
    exact List.sublist_nil.mp hsub
  · intro n r hn
    obtain ⟨first, later, rfl, hknown⟩ := h.live n r hn
    exact ⟨first, later ++ [.heard m], by simp, (hknown.congr hc).handle m⟩
  · intro id hid
    obtain ⟨hpending, hanswer⟩ := h.unknown id hid
    rw [hhandles.mem_pending, hhandles.lookup_answers, hc.pending, hc.answers, hanswer,
      if_neg fun hand ↦ hpending hand.2]
    exact ⟨fun hand ↦ hpending hand.1, rfl⟩
  · rw [hc.pending] at hsub
    exact h.nodup.sublist hsub

/-- The reader has come to the end. -/
theorem close (h : Matched t w) (hc : w.client.Alike c) :
    Matched (t ++ [.ended]) { w with client := c.close } := by
  refine ⟨?_, ?_, ?_, ?_, ?_, ?_, ?_, ?_, ?_⟩
  · rw [← h.next, ← hc.nextId]
    rfl
  · simp [List.filterMap_append, RequestEvent.begins, h.begins]
  · simp [List.filterMap_append, RequestEvent.numbers, h.numbers]
  · intro n
    simp [RequestEvent.closes, h.gone n, or_and_right, exists_or]
  · simp [Client.close]
  · intro _
    rfl
  · intro n r hn
    obtain ⟨first, later, rfl, hknown⟩ := h.live n r hn
    exact ⟨first, later ++ [.ended], by simp, (hknown.congr hc).close⟩
  · intro id hid
    refine ⟨List.not_mem_nil, ?_⟩
    rw [Client.close, hc.answers]
    exact (h.unknown id hid).2
  · exact List.nodup_nil

/-- Every step keeps the invariant. -/
theorem step (h : Matched t w) (hstep : Step w e w') : Matched (t ++ [e]) w' := by
  cases hstep with
  | ask hr => exact h.ask hr
  | refuse _ => exact h.aside (aside_refused _) w.client.alike_refl w.notes w.now
  | write hn hturn =>
    obtain ⟨hc, ticket, message, -, rfl⟩ := ServerCall.turn_eq_moved hturn
    exact h.write hn hc
  | finish hn hturn =>
    obtain ⟨-, c₀, hc, rfl⟩ := ServerCall.turn_eq_finished hturn
    exact h.leave hn hc rfl rfl rfl fun _ ↦ rfl
  | @drop n r hn =>
    obtain ⟨c₀, hc, hdrop⟩ := r.drop_eq w.client
    rw [hdrop]
    exact h.leave hn hc rfl rfl rfl fun _ ↦ rfl
  | note hn => exact h.aside aside_other (Note.alike_start hn) _ w.now
  | noteTurn _ hturn => exact h.aside aside_other (Note.alike_turn hturn) _ w.now
  | @noteDrop i n _ => exact h.aside aside_other (w.client.alike_unqueue n.ticket) _ w.now
  | read hread he =>
    obtain ⟨hopen, c₀, hc, rfl⟩ := Client.readerTurn_eq_some hread
    subst he
    cases w.client.reading with
    | nothing => exact h.aside aside_other hc w.notes w.now
    | message m => exact h.hear hc m
    | ended => exact h.close hc
  | serve bytes accepts ended =>
    exact h.aside aside_other (w.client.alike_wire _) w.notes w.now
  | pass d => exact h.aside aside_other w.client.alike_refl w.notes _

end Matched

end Exchange

end CodeNav
