import CodeNav.Proofs.Server.Answers

/-!
# What those who ask a server may rely on

A request returns what the first message says that answers it, unless the caller's patience or the
server's output comes to an end before; it never returns what belongs to another request. A client
remembers the requests that wait, and no others, so that messages that come too late, or twice, or
for a number that was never given away, change nothing.

## Main definitions

* `Exchange.Faithful`: what callers may rely on

## Main statements

* `Exchange.faithful_of_run`: callers may rely on it in every run
-/

namespace CodeNav

namespace Exchange

variable {w w' : Exchange} {t before after later : List RequestEvent} {c : Client} {n id now : Nat}
  {root : Path} {limit : Option Nat}

/-- Whether a result is what the server has said. -/
def IsAnswer : Except SessionError Json → Prop
  | .ok _ => True
  | .error (.protocol _ _ _) => True
  | .error _ => False

/-- What callers may rely on, after a history of events. -/
structure Faithful (t : List RequestEvent) (w : Exchange) : Prop where
  /-- No two requests have the same number. -/
  numbers : (t.filterMap RequestEvent.numbers).Nodup
  /-- What the server has said is said by the first message that answers the request. -/
  answered : ∀ before n now result after, t = before ++ .returned n now result :: after →
    IsAnswer result → ∃ first, ∃ id : Nat, ∃ method limit between m later,
      before = first ++ .asked n id method limit :: (between ++ .heard m :: later) ∧
      Client.answered? m = some (id : Int) ∧ settlement id between = none ∧
      result = ServerCall.outcome method m
  /-- A request is late only after its limit, and when no message has answered it. -/
  late : ∀ before n now method limit after,
    t = before ++ .returned n now (.error (.timeout method limit)) :: after →
    ∃ first id later start, before = first ++ .asked n id method (some limit) :: later ∧
      .written n start ∈ later ∧ start + limit ≤ now ∧ settlement id later = none
  /-- A request finds the client closed only when the server's output has ended, and no message has
  answered it before. -/
  closed : ∀ before n now after, t = before ++ .returned n now (.error .closed) :: after →
    ∃ first id method limit between later,
      before = first ++ .asked n id method limit :: (between ++ .ended :: later) ∧
      settlement id between = none
  /-- A message that answers no request that waits changes nothing, but for being read. -/
  inert : ∀ m v, Step w (.heard m) v → (m.field? "method").bind Json.string? = none →
    (∀ n id : Nat, Waiting t n id → Client.answered? m ≠ some (id : Int)) →
    ∃ rest decoder, v =
      { w with
        client :=
          { w.client with wire := { w.client.wire with incoming := rest }, decoder := decoder } }
  /-- The client remembers exactly the requests that wait. -/
  pending : ∀ id, id ∈ w.client.pending ↔ ∃ n, Waiting t n id
  /-- The client remembers every request once. -/
  nodup : w.client.pending.Nodup
  /-- After the end of the server's output, the client remembers nothing and refuses everything. -/
  ended : .ended ∈ t → w.client.pending = [] ∧
    ∀ method params limit, ServerCall.start method params limit w.client = .error .closed

/-! ### What was seen of a request -/

theorem settlement_eq_some_some {m : Json} (h : settlement id later = some (some m)) :
    ∃ between after, later = between ++ .heard m :: after ∧
      Client.answered? m = some (id : Int) ∧ settlement id between = none := by
  obtain ⟨between, e, after, rfl, he, hbetween⟩ := List.findSome?_eq_some_iff.mp h
  refine ⟨between, after, ?_, ?_, List.findSome?_eq_none_iff.mpr hbetween⟩ <;>
  · cases e with
    | heard m' =>
      simp only [RequestEvent.settles, Option.ite_none_right_eq_some, Option.some.injEq] at he
      obtain ⟨hm, rfl⟩ := he
      first | rfl | exact hm
    | _ => simp [RequestEvent.settles] at he

theorem settlement_eq_some_none (h : settlement id later = some none) :
    ∃ between after, later = between ++ .ended :: after ∧ settlement id between = none := by
  obtain ⟨between, e, after, rfl, he, hbetween⟩ := List.findSome?_eq_some_iff.mp h
  refine ⟨between, after, ?_, List.findSome?_eq_none_iff.mpr hbetween⟩
  cases e with
  | ended => rfl
  | _ => simp [RequestEvent.settles] at he

/-- Every run of callers with a client that was just started keeps the invariant. -/
theorem matched_of_run (hc : Client.start root limit = .ok c) (h : Run Step (start c) t w) :
    Matched t w :=
  h.invariant (matched_start hc) fun _ _ _ _ _ hu hstep ↦ hu.step hstep

/-- When a request returns, the client knows of it what was seen since it was made. -/
theorem ends_of_run (hc : Client.start root limit = .ok c) {result : Except SessionError Json}
    (h : Run Step (start c) (before ++ .returned n now result :: after) w) :
    ∃ (u : Exchange) (r : ServerCall) (first later : List RequestEvent),
      before = first ++ .asked n (n + 1) r.method r.limit :: later ∧
        Known u.client n r later ∧ ServerCall.Ends now u.client r result := by
  obtain ⟨u, v, hu, hstep, -, -⟩ := h.split
  cases hstep with
  | @finish _ r _ _ hn hturn =>
    obtain ⟨first, later, hbefore, hknown⟩ := (matched_of_run hc hu).live n r hn
    exact ⟨u, r, first, later, hbefore, hknown, (ServerCall.turn_eq_finished hturn).1⟩
  | read _ he => cases hr : u.client.reading <;> simp [hr, RequestEvent.ofReading] at he

/-- What the server has said to a request is said by the first message that answers it. -/
theorem answered_of_run (hc : Client.start root limit = .ok c)
    {result : Except SessionError Json} (hresult : IsAnswer result)
    (h : Run Step (start c) (before ++ .returned n now result :: after) w) :
    ∃ first, ∃ id : Nat, ∃ method limit between m later,
      before = first ++ .asked n id method limit :: (between ++ .heard m :: later) ∧
      Client.answered? m = some (id : Int) ∧ settlement id between = none ∧
      result = ServerCall.outcome method m := by
  obtain ⟨u, r, first, later, rfl, hknown, hends⟩ := ends_of_run hc h
  cases hends with
  | @answered id method limit deadline answer hanswer =>
    obtain rfl : id = n + 1 := hknown.number
    have hjoin := hknown.answer
    rw [hanswer] at hjoin
    obtain ⟨between, after, rfl, hm, hbetween⟩ :=
      settlement_eq_some_some (Option.join_eq_some_iff.mp hjoin.symm)
    exact ⟨first, n + 1, method, limit, between, answer, after, rfl, hm, hbetween, rfl⟩
  | broken => exact hresult.elim
  | closed => exact hresult.elim
  | late => exact hresult.elim

/-- A request is late only after its limit, and when no message has answered it. -/
theorem late_of_run (hc : Client.start root limit = .ok c) {method : String} {ms : Nat}
    (h : Run Step (start c)
      (before ++ .returned n now (.error (.timeout method ms)) :: after) w) :
    ∃ first id later start, before = first ++ .asked n id method (some ms) :: later ∧
      .written n start ∈ later ∧ start + ms ≤ now ∧ settlement id later = none := by
  obtain ⟨u, r, first, later, rfl, hknown, hends⟩ := ends_of_run hc h
  generalize hresult : Except.error (SessionError.timeout method ms) = result at hends
  cases hends with
  | @late id t m l hnone hp ht =>
    obtain rfl : id = n + 1 := hknown.number
    obtain ⟨rfl, rfl⟩ : method = m ∧ ms = l.getD 0 := by simpa using hresult
    obtain ⟨start, hstart, hdeadline⟩ := hknown.written (some t) rfl
    obtain ⟨limit, hlimit, rfl⟩ := Option.map_eq_some_iff.mp hdeadline.symm
    simp only [ServerCall.limit] at hlimit
    subst hlimit
    exact ⟨first, n + 1, later, start, rfl, hstart, ht, hknown.pending.mp hp⟩
  | @answered id m l deadline answer hanswer =>
    cases he : answer.field? "error" <;> simp [ServerCall.outcome, he] at hresult
  | broken => simp [Client.brokenPipe] at hresult
  | closed => simp at hresult

/-- A request finds the client closed only when the server's output has ended first. -/
theorem closed_of_run (hc : Client.start root limit = .ok c)
    (h : Run Step (start c) (before ++ .returned n now (.error .closed) :: after) w) :
    ∃ first id method limit between later,
      before = first ++ .asked n id method limit :: (between ++ .ended :: later) ∧
      settlement id between = none := by
  obtain ⟨u, r, first, later, rfl, hknown, hends⟩ := ends_of_run hc h
  generalize hresult : Except.error SessionError.closed = result at hends
  cases hends with
  | @closed id m l deadline hnone hp =>
    obtain rfl : id = n + 1 := hknown.number
    -- Something has settled the request, and it was no answer.
    have hsettled : settlement (n + 1) later ≠ none := mt hknown.pending.mpr hp
    have hjoin := hknown.answer
    rw [hnone] at hjoin
    cases hs : settlement (n + 1) later with
    | none => exact absurd hs hsettled
    | some x =>
      rw [hs] at hjoin
      obtain rfl : x = none := hjoin.symm
      obtain ⟨between, after, rfl, hbetween⟩ := settlement_eq_some_none hs
      exact ⟨first, n + 1, m, l, between, after, rfl, hbetween⟩
  | @answered id m l deadline answer hanswer =>
    cases he : answer.field? "error" <;> simp [ServerCall.outcome, he] at hresult
  | broken => simp [Client.brokenPipe] at hresult
  | late => simp at hresult

/-! ### What the client remembers -/

namespace Matched

theorem nodup_begins (h : Matched t w) : (t.filterMap RequestEvent.begins).Nodup :=
  h.begins ▸ List.nodup_range

theorem nodup_numbers (h : Matched t w) : (t.filterMap RequestEvent.numbers).Nodup := by
  rw [h.numbers]
  exact List.nodup_range.map fun _ _ ↦ Nat.succ.inj

/-- A request that the client remembers waits. -/
theorem waiting_of_mem (h : Matched t w) (hid : id ∈ w.client.pending) : ∃ n, Waiting t n id := by
  by_cases hlive : ∃ n r, w.requests[n]? = some (some r) ∧ n + 1 = id
  · obtain ⟨n, r, hn, rfl⟩ := hlive
    obtain ⟨first, later, rfl, hknown⟩ := h.live n r hn
    refine ⟨n, first, r.method, r.limit, later, rfl, hknown.pending.mp hid, fun e he hclose ↦ ?_⟩
    have hover := (h.gone n).mpr ⟨e, by simp [he], hclose⟩
    simp [hn] at hover
  · refine absurd hid (h.unknown id fun n r hn heq ↦ hlive ⟨n, r, hn, heq⟩).1

end Matched

/-- A request that waits is remembered by the client. -/
theorem mem_of_waiting (hc : Client.start root limit = .ok c) (h : Run Step (start c) t w)
    (hwaiting : Waiting t n id) : id ∈ w.client.pending := by
  have hmatched := matched_of_run hc h
  obtain ⟨first, method, limit, later, rfl, hsettlement, hopen⟩ := hwaiting
  have hn : n < w.requests.length := by
    rw [← List.mem_range, ← hmatched.begins, List.mem_filterMap]
    exact ⟨.asked n id method limit, by simp, rfl⟩
  cases hr : w.requests[n] with
  | none =>
    -- Nothing ends a request before it is made.
    obtain ⟨e, he, hclose⟩ := (hmatched.gone n).mp (List.getElem?_eq_some_iff.mpr ⟨hn, hr⟩)
    obtain ⟨u, v, hu, hstep, -, -⟩ := h.split
    have hfirst : e ∈ first := by
      rcases List.mem_append.mp he with he | he
      · exact he
      · rcases List.mem_cons.mp he with rfl | he
        · simp [RequestEvent.closes] at hclose
        · exact absurd hclose (hopen e he)
    have hover := ((matched_of_run hc hu).gone n).mpr ⟨e, hfirst, hclose⟩
    have hlt := (List.getElem?_eq_some_iff.mp hover).1
    cases hstep with
    | ask => exact absurd hlt (Nat.lt_irrefl _)
    | read _ he => cases hr : u.client.reading <;> simp [hr, RequestEvent.ofReading] at he
  | some r =>
    obtain ⟨first', later', heq, hknown⟩ :=
      hmatched.live n r (List.getElem?_eq_some_iff.mpr ⟨hn, hr⟩)
    have hasked := eq_of_nodup hmatched.nodup_begins (d := .asked n id method limit)
      (e := .asked n (n + 1) r.method r.limit) (by simp) (by rw [heq]; simp) rfl rfl
    rw [← hasked] at heq
    obtain ⟨-, rfl⟩ := append_cons_inj_of_nodup hmatched.nodup_begins rfl heq
    obtain rfl : id = n + 1 := by simpa using (RequestEvent.asked.inj hasked).2.1
    exact hknown.pending.mpr hsettlement

/-- In every run of callers with a client that was just started, in which requests are made, written,
returned and given up, the server does what it likes and time passes, in any order, callers may rely
on what they are told. -/
theorem faithful_of_run (hc : Client.start root limit = .ok c) (h : Run Step (start c) t w) :
    Faithful t w := by
  have hmatched := matched_of_run hc h
  refine ⟨hmatched.nodup_numbers, ?_, ?_, ?_, ?_, ?_, hmatched.nodup, ?_⟩
  · rintro before n now result after rfl hresult
    exact answered_of_run hc hresult h
  · rintro before n now method ms after rfl
    exact late_of_run hc h
  · rintro before n now after rfl
    exact closed_of_run hc h
  · intro m v hstep hmethod hm
    cases hstep with
    | read hread he =>
      have hreading : w.client.reading = .message m := by
        cases hr : w.client.reading <;> simp_all [RequestEvent.ofReading]
      obtain ⟨rest, decoder, rfl⟩ := Client.readerTurn_of_message hread hreading
      refine ⟨rest, decoder, ?_⟩
      rw [(Client.handles _ m).eq_self hmethod]
      intro id hid
      obtain ⟨n, hwaiting⟩ := hmatched.waiting_of_mem hid
      exact hm n id hwaiting
  · intro id
    exact ⟨hmatched.waiting_of_mem, fun ⟨_, hwaiting⟩ ↦ mem_of_waiting hc h hwaiting⟩
  · intro hended
    have hclosed := hmatched.ended.mpr hended
    exact ⟨hmatched.silent hclosed, ServerCall.start_of_closed hclosed⟩

/-- A request returns the answer that was read for it. -/
theorem faithful_answered : ∃ c m w, Client.start ⟨"/a"⟩ none = .ok c ∧
    Client.answered? m = some 1 ∧
    Run Step (start c)
      [.asked 0 1 "ping" none, .written 0 0, .other, .heard m,
        .returned 0 0 (ServerCall.outcome "ping" m)] w ∧
    Faithful
      [.asked 0 1 "ping" none, .written 0 0, .other, .heard m,
        .returned 0 0 (ServerCall.outcome "ping" m)] w := by
  have asked := Run.nil.snoc (@Step.ask
    (start
      { wire := .fresh, rootUri := "file:///a/", rootName := "a", requestLimit := none, nextId := 1
        pending := [], answers := [], writer := .free, decoder := .fresh, answering := none
        closed := false }) "ping" .null none _ _ rfl)
  have written := asked.snoc (Step.write (n := 0) rfl rfl)
  -- The bytes of an answer that has the number 1, and nothing else.
  have served := written.snoc (Step.serve
    [67, 111, 110, 116, 101, 110, 116, 45, 76, 101, 110, 103, 116, 104, 58, 32, 56, 13, 10, 13, 10,
      123, 34, 105, 100, 34, 58, 49, 125] true false)
  obtain ⟨w, served, hnow, hrequest, hpending, hanswers, hread, hmessage⟩ :
      ∃ w, Run Step _ _ w ∧ w.now = 0 ∧
        w.requests[0]? = some (some (.awaiting 1 "ping" none none)) ∧
        w.client.pending = [1] ∧ w.client.answers = [] ∧ w.client.readerTurn.isSome = true ∧
        w.client.reading.message?.bind Client.answered? = some 1 :=
    ⟨_, served, rfl, rfl, rfl, rfl, by decide +kernel, by decide +kernel⟩
  obtain ⟨c, hread⟩ := Option.isSome_iff_exists.mp hread
  obtain ⟨m, hm, hanswered⟩ := Option.bind_eq_some_iff.mp hmessage
  have hreading : w.client.reading = .message m := Client.Reading.message?_eq_some.mp hm
  have heard := served.snoc (Step.read hread (by rw [hreading]))
  have hlookup : c.answers.lookup 1 = some m :=
    Client.lookup_of_readerTurn hread hreading hanswered (by simp [hpending]) (by simp [hanswers])
  have hturn : (ServerCall.awaiting 1 "ping" none none).turn w.now c =
      .finished (ServerCall.outcome "ping" m) (ServerCall.forget c 1) := by
    simp only [ServerCall.turn, hlookup]
  have returned := heard.snoc (Step.finish hrequest hturn)
  rw [hnow] at returned
  exact ⟨_, m, _, rfl, hanswered, returned,
    faithful_of_run (show Client.start ⟨"/a"⟩ none = .ok _ from rfl) returned⟩

end Exchange

end CodeNav
