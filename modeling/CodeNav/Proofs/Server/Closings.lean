import CodeNav.Proofs.Server.Shelves

/-!
# Closing what was taken out

A call that takes sessions out returns when all of them are closed. It is told from others by its number,
and remembers which sessions it has taken.

## Main definitions

* `Closing.Closes`, `Eviction.Closes`: how far closing sessions has come, and how far they are
* `RegistryWorld.Evicting`: the calls that take sessions out, and what was seen of them

## Main statements

* `Sessions.closes_of_step`: a session is closed when closing it is over
* `Eviction.Closes.of_turn`, `Eviction.Closes.closed_of_turn`: so are all sessions of an eviction
* `RegistryWorld.evicting_of_run`: what is true of the calls after every run
* `RegistryWorld.closed_of_returned`: the sessions that were taken out are closed when a call returns
-/

namespace CodeNav

/-- How far closing a session has come tells how far the session is. -/
def Closing.Closes (s : Session) : Closing → Prop
  | .notBegun => True
  | .going phase => s.Closes phase
  | .over => s.state = .closed

theorem Closing.Closes.of_closed {s s' : Session} {c : Closing} (h : c.Closes s)
    (hclosed : s.state = .closed → s'.state = .closed) : c.Closes s' := by
  cases c with
  | notBegun => exact True.intro
  | going phase => exact Session.Closes.of_state h hclosed
  | «over» => exact hclosed h

namespace Sessions

variable {r r' : Sessions} {n : Nat} {s : Session} {fs : FileSystem} {now : Nat} {c c' : Closing}

/-- Closing a session that is there begins, or is over at once. -/
theorem closes_of_begin {b : SessionPhase ⊕ SessionResult} (hs : r.session? n = some s)
    (h : r.beginOn n .close = (b, r')) : ∃ s', r'.session? n = some s' ∧
      (∀ phase, b = .inl phase → s'.Closes phase) ∧ (∀ result, b = .inr result → s'.state = .closed) := by
  simp only [beginOn, hs] at h
  obtain ⟨rfl, rfl⟩ := Prod.mk.inj h
  refine ⟨(Session.begin .close s).2, ?_, s.closes_begin⟩
  exact session?_put_self hs _

/-- A session is closed when closing it is over. -/
theorem closes_of_step (hs : r.session? n = some s) (hc : c.Closes s)
    (h : Closing.Step fs now n r c c' r') : ∃ s', r'.session? n = some s' ∧ c'.Closes s' := by
  cases h with
  | begun h =>
    obtain ⟨s', hs', hphase, -⟩ := closes_of_begin hs h
    exact ⟨s', hs', hphase _ rfl⟩
  | atOnce h =>
    obtain ⟨s', hs', -, hclosed⟩ := closes_of_begin hs h
    exact ⟨s', hs', hclosed _ rfl⟩
  | goesOn h =>
    rw [turnOn_eq_lift hs] at h
    obtain ⟨s', hturn, rfl⟩ := Turn.lift_eq_moved.mp h
    exact ⟨s', session?_put_self hs s', Session.closes_turn hc hturn⟩
  | ends h =>
    rw [turnOn_eq_lift hs] at h
    obtain ⟨s', hturn, rfl⟩ := Turn.lift_eq_finished.mp h
    exact ⟨s', session?_put_self hs s', Session.closed_of_turn hc hturn⟩

end Sessions

namespace Eviction

variable {r r' : Sessions} {x : Eviction} {any : Bool}

/-- Sessions that are taken out are remembered, and being closed. -/
theorem closes_of_begin (hsessions : ∀ key n, (key, n) ∈ r.table → ∃ s, r.session? n = some s)
    (call : EvictionCall) (h : begin call r = (.inl x, r')) :
    x.closings.map Prod.fst = r.takenBy call ∧
      ∀ n c, (n, c) ∈ x.closings → ∃ s, r'.session? n = some s ∧ c.Closes s := by
  cases begins_of_begin h with
  | @begun key m _ _ hfind hclose =>
    obtain ⟨s, hs⟩ := hsessions key m (Sessions.mem_table_of_find? hfind)
    have hs : (r.without key).session? m = some s := hs
    obtain ⟨s', hs', hphase, -⟩ := Sessions.closes_of_begin hs hclose
    refine ⟨by simp [Sessions.takenBy, hfind], fun n c hmem ↦ ?_⟩
    obtain ⟨rfl, rfl⟩ := Prod.mk.inj (List.mem_singleton.mp hmem)
    exact ⟨s', hs', hphase _ rfl⟩
  | all =>
    refine ⟨by simp [Sessions.takenBy], fun n c hmem ↦ ?_⟩
    obtain ⟨⟨key, m⟩, hm, heq⟩ := List.mem_map.mp hmem
    obtain ⟨rfl, rfl⟩ := Prod.mk.inj heq
    obtain ⟨s, hs⟩ := hsessions key m hm
    exact ⟨s, hs, True.intro⟩

/-- Sessions that are taken out by a call that is over at once are closed. -/
theorem closed_of_begin (hsessions : ∀ key n, (key, n) ∈ r.table → ∃ s, r.session? n = some s)
    (call : EvictionCall) (h : begin call r = (.inr any, r')) {n : Nat} (hn : n ∈ r.takenBy call) :
    ∃ s, r'.session? n = some s ∧ s.state = .closed := by
  cases begins_of_begin h with
  | missing hfind => simp [Sessions.takenBy, hfind] at hn
  | @atOnce key m _ _ hfind hclose =>
    obtain ⟨s, hs⟩ := hsessions key m (Sessions.mem_table_of_find? hfind)
    have hs : (r.without key).session? m = some s := hs
    obtain ⟨s', hs', -, hclosed⟩ := Sessions.closes_of_begin hs hclose
    obtain rfl : n = m := by simpa [Sessions.takenBy, hfind] using hn
    exact ⟨s', hs', hclosed _ rfl⟩
  | empty htable => simp [Sessions.takenBy, htable] at hn

/-- The sessions of a call do not change while it goes on. -/
theorem map_fst_set {i m : Nat} {c c' : Closing} (hm : x.closings[i]? = some (m, c)) :
    (x.closings.set i (m, c')).map Prod.fst = x.closings.map Prod.fst := by
  obtain ⟨hlt, heq⟩ := List.getElem?_eq_some_iff.mp hm
  have hlt' : i < (x.closings.map Prod.fst).length := by simpa using hlt
  have hself : (x.closings.map Prod.fst)[i] = m := by simp [heq]
  rw [List.map_set, ← hself, List.set_getElem_self]

section Turn

variable {y : Eviction} {fs : FileSystem} {now i : Nat}

/-- Every session of an eviction is as far as closing it has come. -/
def Closes (x : Eviction) (r : Sessions) : Prop :=
  ∀ n c, (n, c) ∈ x.closings → ∃ s, r.session? n = some s ∧ c.Closes s

/-- Others have gone on, and sessions that are closed are still closed. -/
theorem Closes.of_closed (h : x.Closes r) (hlasting : ∀ n s, r.session? n = some s →
    ∃ s', r'.session? n = some s' ∧ (s.state = .closed → s'.state = .closed)) : x.Closes r' := by
  intro n c hmem
  obtain ⟨s, hs, hc⟩ := h n c hmem
  obtain ⟨s', hs', hclosed⟩ := hlasting n s hs
  exact ⟨s', hs', hc.of_closed hclosed⟩

/-- What closing one of the sessions further does to all of them. -/
theorem Closes.set (h : x.Closes r) {m : Nat} {c c' : Closing} (hm : x.closings[i]? = some (m, c))
    (hstep : Closing.Step fs now m r c c' r') (hlasting : ∀ n s, r.session? n = some s →
      ∃ s', r'.session? n = some s' ∧ (s.state = .closed → s'.state = .closed)) :
    Closes ⟨x.closings.set i (m, c')⟩ r' := by
  intro n c₁ hmem
  rcases List.mem_or_eq_of_mem_set hmem with hmem | heq
  · exact h.of_closed hlasting n c₁ hmem
  · obtain ⟨rfl, rfl⟩ := Prod.mk.inj heq
    obtain ⟨s, hs, hc⟩ := h n c (List.mem_of_getElem? hm)
    exact Sessions.closes_of_step hs hc hstep

theorem Closes.of_turn (h : x.Closes r) (hturn : x.turn fs now i r = .moved y r')
    (hlasting : ∀ n s, r.session? n = some s →
      ∃ s', r'.session? n = some s' ∧ (s.state = .closed → s'.state = .closed)) :
    y.closings.map Prod.fst = x.closings.map Prod.fst ∧ y.Closes r' := by
  obtain ⟨m, c, c', hm, hstep, rfl⟩ := turn_eq_moved hturn
  exact ⟨map_fst_set hm, h.set hm hstep hlasting⟩

/-- When an eviction is over, all of its sessions are closed. -/
theorem Closes.closed_of_turn (h : x.Closes r) (hturn : x.turn fs now i r = .finished any r')
    (hlasting : ∀ n s, r.session? n = some s →
      ∃ s', r'.session? n = some s' ∧ (s.state = .closed → s'.state = .closed)) {n : Nat}
    (hn : n ∈ x.closings.map Prod.fst) : ∃ s, r'.session? n = some s ∧ s.state = .closed := by
  obtain ⟨m, c, hm, hstep, hover, -⟩ := turn_eq_finished hturn
  have hsame : (x.closings.set i (m, .over)).map Prod.fst = x.closings.map Prod.fst := map_fst_set hm
  rw [← hsame] at hn
  obtain ⟨⟨n, c₁⟩, hmem, rfl⟩ := List.mem_map.mp hn
  obtain ⟨s, hs, hc⟩ := h.set hm hstep hlasting n c₁ hmem
  have hall := List.all_eq_true.mp hover _ hmem
  cases c₁ with
  | «over» => exact ⟨s, hs, hc⟩
  | notBegun | going => cases hall

end Turn

end Eviction

namespace RegistryWorld

variable {w w' : RegistryWorld} {e : RegistryEvent} {t : List RegistryEvent} {root : Path}
  {options : SessionOptions}

/-- A session is closed. -/
def IsClosed (n : Nat) (w : RegistryWorld) : Prop :=
  ∃ s, w.session? n = some s ∧ s.state = .closed

/-- The calls that take sessions out, and what was seen of them. -/
structure Evicting (t : List RegistryEvent) (w : RegistryWorld) : Prop where
  /-- A call that goes on remembers what it has taken. -/
  logged : ∀ (call : EvictionCall) (i : Nat) taken result, .evicted call i taken result ∈ t →
    i < w.evictions.length ∧
      ∀ x : Eviction, w.evictions[i]? = some (some x) → x.closings.map Prod.fst = taken
  begun : ∀ (i : Nat) (x : Eviction), w.evictions[i]? = some (some x) →
    ∃ call taken, .evicted call i taken none ∈ t
  /-- Sessions are as far as closing them has come. -/
  closes : ∀ (i : Nat) (x : Eviction) n c, w.evictions[i]? = some (some x) → (n, c) ∈ x.closings →
    ∃ s, w.session? n = some s ∧ c.Closes s

theorem Evicting.create : Evicting [] (create root options) :=
  ⟨nofun, by simp [RegistryWorld.create], by simp [RegistryWorld.create]⟩

/-- Nothing is seen of the calls while others go on. -/
theorem Evicting.frame (h : Evicting t w) (hevictions : w'.evictions = w.evictions)
    (hlasting : ∀ n s, w.session? n = some s →
      ∃ s', w'.session? n = some s' ∧ (s.state = .closed → s'.state = .closed))
    (he : ∀ call i taken result, e ≠ .evicted call i taken result) : Evicting (t ++ [e]) w' := by
  refine ⟨fun call i taken result hmem ↦ ?_, fun i x hx ↦ ?_, fun i x n c hx hmem ↦ ?_⟩
  · rcases List.mem_append.mp hmem with hmem | hmem
    · rw [hevictions]
      exact h.logged call i taken result hmem
    · exact absurd (List.mem_singleton.mp hmem).symm (he call i taken result)
  · obtain ⟨call, taken, hmem⟩ := h.begun i x (hevictions ▸ hx)
    exact ⟨call, taken, List.mem_append_left _ hmem⟩
  · obtain ⟨s, hs, hc⟩ := h.closes i x n c (hevictions ▸ hx) hmem
    obtain ⟨s', hs', hclosed⟩ := hlasting n s hs
    exact ⟨s', hs', hc.of_closed hclosed⟩

/-- One of the calls goes on or is over. -/
theorem Evicting.set (h : Evicting t w) {k : Nat} {x : Eviction} {after : Option Eviction}
    (hk : w.evictions[k]? = some (some x)) (hevictions : w'.evictions = w.evictions.set k after)
    (hlasting : ∀ n s, w.session? n = some s →
      ∃ s', w'.session? n = some s' ∧ (s.state = .closed → s'.state = .closed))
    (he : ∀ call i taken result, e ≠ .evicted call i taken result)
    (htaken : ∀ y, after = some y → y.closings.map Prod.fst = x.closings.map Prod.fst)
    (hcloses : ∀ y, after = some y → y.Closes w'.sessions) : Evicting (t ++ [e]) w' := by
  refine ⟨fun call i taken result hmem ↦ ?_, fun i y hy ↦ ?_, fun i y n c hy hmem ↦ ?_⟩
  · rcases List.mem_append.mp hmem with hmem | hmem
    · obtain ⟨hlt, hsame⟩ := h.logged call i taken result hmem
      rw [hevictions, List.length_set]
      refine ⟨hlt, fun y hy ↦ ?_⟩
      rcases (getElem?_set_eq_some hk).mp hy with ⟨rfl, heq⟩ | ⟨-, hy⟩
      · exact (htaken y heq.symm).trans (hsame x hk)
      · exact hsame y hy
    · exact absurd (List.mem_singleton.mp hmem).symm (he call i taken result)
  · rw [hevictions] at hy
    rcases (getElem?_set_eq_some hk).mp hy with ⟨rfl, -⟩ | ⟨-, hy⟩
    · obtain ⟨call, taken, hmem⟩ := h.begun i x hk
      exact ⟨call, taken, List.mem_append_left _ hmem⟩
    · obtain ⟨call, taken, hmem⟩ := h.begun i y hy
      exact ⟨call, taken, List.mem_append_left _ hmem⟩
  · rw [hevictions] at hy
    rcases (getElem?_set_eq_some hk).mp hy with ⟨-, heq⟩ | ⟨-, hy⟩
    · exact hcloses y heq.symm n c hmem
    · obtain ⟨s, hs, hc⟩ := h.closes i y n c hy hmem
      obtain ⟨s', hs', hclosed⟩ := hlasting n s hs
      exact ⟨s', hs', hc.of_closed hclosed⟩

/-- A call that takes sessions out begins. -/
theorem Evicting.concat (h : Evicting t w) (call : EvictionCall)
    (hsessions : ∀ key n, (key, n) ∈ w.sessions.table → ∃ s, w.session? n = some s)
    (hlasting : ∀ n s, w.session? n = some s →
      ∃ s', (Eviction.begin call w.sessions).2.session? n = some s' ∧
        (s.state = .closed → s'.state = .closed)) :
    Evicting
      (t ++ [.evicted call w.evictions.length (w.sessions.takenBy call)
        (Eviction.begin call w.sessions).1.getRight?])
      { w with
        sessions := (Eviction.begin call w.sessions).2
        evictions := w.evictions ++ [(Eviction.begin call w.sessions).1.getLeft?] } := by
  obtain ⟨b, r, hbegin⟩ : ∃ b r, Eviction.begin call w.sessions = (b, r) := ⟨_, _, rfl⟩
  rw [hbegin] at hlasting ⊢
  -- What is true of the call that begins, if it is not over at once.
  have hnew : ∀ x, b.getLeft? = some x → b = .inl x ∧
      x.closings.map Prod.fst = w.sessions.takenBy call ∧
        ∀ n c, (n, c) ∈ x.closings → ∃ s, r.session? n = some s ∧ c.Closes s := by
    intro x hx
    cases b with
    | inr any => cases hx
    | inl y =>
      obtain rfl := Option.some.inj hx
      exact ⟨rfl, Eviction.closes_of_begin hsessions call hbegin⟩
  refine ⟨fun call' i taken result hmem ↦ ?_, fun i x hx ↦ ?_, fun i x n c hx hmem ↦ ?_⟩
  · rw [List.length_append, List.length_singleton]
    rcases List.mem_append.mp hmem with hmem | hmem
    · obtain ⟨hlt, hsame⟩ := h.logged call' i taken result hmem
      refine ⟨Nat.lt_succ_of_lt hlt, fun x hx ↦ ?_⟩
      rw [List.getElem?_append_left hlt] at hx
      exact hsame x hx
    · obtain ⟨rfl, rfl, rfl, rfl⟩ := RegistryEvent.evicted.inj (List.mem_singleton.mp hmem)
      refine ⟨Nat.lt_succ_self _, fun x hx ↦ ?_⟩
      rw [List.getElem?_concat_length] at hx
      exact (hnew x (Option.some.inj hx)).2.1
  · rcases getElem?_concat_eq_some.mp hx with hx | ⟨rfl, heq⟩
    · obtain ⟨call', taken, hmem⟩ := h.begun i x hx
      exact ⟨call', taken, List.mem_append_left _ hmem⟩
    · obtain ⟨rfl, -⟩ := hnew x heq.symm
      exact ⟨call, _, List.mem_append_right _ List.mem_cons_self⟩
  · rcases getElem?_concat_eq_some.mp hx with hx | ⟨-, hx⟩
    · obtain ⟨s, hs, hc⟩ := h.closes i x n c hx hmem
      obtain ⟨s', hs', hclosed⟩ := hlasting n s hs
      exact ⟨s', hs', hc.of_closed hclosed⟩
    · exact (hnew x hx.symm).2.2 n c hmem

/-- What is true of the calls after every run. -/
theorem evicting_of_run (h : Run Step (create root options) t w) : Evicting t w := by
  refine h.invariant (P := Evicting) .create ?_
  intro t u e v hu hevicting hstep
  have hlasting : ∀ n s, u.session? n = some s →
      ∃ s', v.session? n = some s' ∧ (s.state = .closed → s'.state = .closed) := by
    intro n s hs
    obtain ⟨s', hs', -, hclosed⟩ := lasting_of_run hu (Run.nil.snoc hstep) hs
    exact ⟨s', hs', hclosed⟩
  cases hstep with
  | evict call =>
    refine hevicting.concat call (fun key n hn ↦ ?_) hlasting
    obtain ⟨s, hs, -⟩ := (shelved_of_run hu).sessions key n hn
    exact ⟨s, hs⟩
  | close fs hn hturn =>
    obtain ⟨hsame, hcloses⟩ :=
      Eviction.Closes.of_turn (fun n c ↦ hevicting.closes _ _ n c hn) hturn hlasting
    refine hevicting.set hn rfl hlasting nofun (fun y hy ↦ ?_) fun y hy ↦ ?_
    · exact Option.some.inj hy ▸ hsame
    · exact Option.some.inj hy ▸ hcloses
  | finish fs hn | abandon hn => exact hevicting.set hn rfl hlasting nofun nofun nofun
  | get | find | callBegin | callTurn | callEnd | callDrop | observe | inside | pass =>
    exact hevicting.frame rfl hlasting nofun

/-- The sessions that were taken out are closed when a call returns. -/
theorem closed_of_returned {i : Nat} {any : Bool} {result : Option Bool} {call : EvictionCall}
    {taken : List Nat} (h : Run Step (create root options) t w) (hstep : Step w e w')
    (he : e = .returned i any ∨ ∃ call taken, e = .evicted call i taken (some any))
    (hmem : .evicted call i taken result ∈ t ++ [e]) {n : Nat} (hn : n ∈ taken) : w'.IsClosed n := by
  have hevicting := evicting_of_run h
  have hlasting : ∀ n s, w.session? n = some s →
      ∃ s', w'.session? n = some s' ∧ (s.state = .closed → s'.state = .closed) := by
    intro n s hs
    obtain ⟨s', hs', -, hclosed⟩ := lasting_of_run h (Run.nil.snoc hstep) hs
    exact ⟨s', hs', hclosed⟩
  cases hstep with
  | @finish k strand x any' r fs hk hturn =>
    obtain ⟨rfl, rfl⟩ : k = i ∧ any' = any := by simpa using he
    have hmem := (List.mem_append.mp hmem).resolve_right (by simp)
    rw [← (hevicting.logged call k taken result hmem).2 x hk] at hn
    exact Eviction.Closes.closed_of_turn (fun n c ↦ hevicting.closes _ _ n c hk) hturn hlasting hn
  | evict call' =>
    obtain ⟨call'', taken'', he⟩ := he.resolve_left nofun
    obtain ⟨rfl, rfl, rfl, hany⟩ := RegistryEvent.evicted.inj he
    -- Calls are told apart by their numbers.
    have hmem := (List.mem_append.mp hmem).resolve_left fun hmem ↦
      absurd (hevicting.logged _ _ _ _ hmem).1 (Nat.lt_irrefl _)
    obtain ⟨rfl, -, rfl, -⟩ := RegistryEvent.evicted.inj (List.mem_singleton.mp hmem)
    obtain ⟨b, r, hbegin⟩ : ∃ b r, Eviction.begin call w.sessions = (b, r) := ⟨_, _, rfl⟩
    rw [hbegin] at hany
    obtain rfl := Sum.getRight?_eq_some_iff.mp hany
    obtain ⟨s, hs, hclosed⟩ := Eviction.closed_of_begin (fun key n hn ↦ by
      obtain ⟨s, hs, -⟩ := (shelved_of_run h).sessions key n hn
      exact ⟨s, hs⟩) call hbegin hn
    refine ⟨s, ?_, hclosed⟩
    change (Eviction.begin call w.sessions).2.session? n = some s
    rw [hbegin]
    exact hs
  | get | find | close | abandon | callBegin | callTurn | callEnd | callDrop | observe | inside | pass =>
    obtain he | ⟨call', taken', he⟩ := he <;> cases he

end RegistryWorld

end CodeNav
