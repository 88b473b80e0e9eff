import CodeNav.Proofs.Server.Sessions

/-!
# Schedules of a session

What happens to a session when callers, handshake, reader and server take turns in a given order can be
computed, and a schedule that can be followed to its end is a run.

## Main definitions

* `SessionMove`, `SessionWorld.move`: one turn
* `SessionMove.start`: the turns that get a session to run

## Main statements

* `SessionWorld.step_of_move`: a turn is a step
-/

namespace CodeNav

/-- Who takes a turn. -/
inductive SessionMove where
  | begin (what : SessionCall)
  /-- A call goes on, or is over. -/
  | go (call : Nat)
  | drop (call : Nat)
  | observe
  | launch
  /-- The launcher has started the server. -/
  | launched
  /-- The handshake goes on, or is over. -/
  | shake
  | read
  | serve (bytes : List UInt8) (accepts ended : Bool)
  | pass (d : Nat)

/-- The turns that get a new session to run: its server answers the request with the number 1. -/
def SessionMove.start : List SessionMove :=
  [.begin (.start default), .launch, .launched, .shake,
    .serve [67, 111, 110, 116, 101, 110, 116, 45, 76, 101, 110, 103, 116, 104, 58, 32, 56, 13, 10, 13,
      10, 123, 34, 105, 100, 34, 58, 49, 125] true false,
    .read, .shake]

namespace SessionWorld

variable {w w' : SessionWorld} {e : SessionEvent}

/-- What comes of a turn, if there is something to do. -/
def move (w : SessionWorld) : SessionMove → Option (SessionEvent × SessionWorld)
  | .begin what =>
    let begun := Session.begin what w.session
    some (.began w.calls.length what w.session.state (resultOf begun.1),
      { w with session := begun.2, calls := w.calls ++ [⟨what, phaseOf begun.1⟩] })
  | .go n =>
    match w.calls[n]? with
    | some ⟨what, some phase⟩ =>
      match Session.turn ⟨[]⟩ w.now phase w.session with
      | .parked _ => none
      | .moved phase s => some (.other, { w with session := s, calls := w.calls.set n ⟨what, some phase⟩ })
      | .finished r s =>
        some (.returned n what r, { w with session := s, calls := w.calls.set n ⟨what, none⟩ })
    | _ => none
  | .drop n =>
    match w.calls[n]? with
    | some ⟨what, some phase⟩ =>
      some (.dropped n,
        { w with session := Session.drop phase w.session, calls := w.calls.set n ⟨what, none⟩ })
    | _ => none
  | .observe => some (.observed w.session.observe.state, { w with session := w.session.observe })
  | .launch =>
    match w.session.handshake, w.launching with
    | .launching spec, none => some (.launch spec, { w with launching := some spec })
    | _, _ => none
  | .launched =>
    match w.session.handshake, w.launching with
    | .launching spec, some spec' =>
      if spec = spec' then
        some (.launched (w.session.launched (.ok ())).handshake,
          { w with session := w.session.launched (.ok ()), launching := none })
      else none
    | _, _ => none
  | .shake =>
    match w.session.handshakeTurn w.now with
    | .parked _ => none
    | .moved _ s => some (.shook s.handshake, { w with session := s })
    | .finished _ s => some (.shook s.handshake, { w with session := s })
  | .read =>
    match w.session.client with
    | none => none
    | some c => c.readerTurn.map fun c' ↦
      (.ofReading c.reading, { w with session := w.session.withClient c' })
  | .serve bytes accepts ended =>
    w.session.client.map fun c ↦ (.other,
      { w with
        session := w.session.withClient { c with wire := c.wire.serve bytes accepts ended } })
  | .pass d => some (.other, { w with now := w.now + d })

/-- What comes of a turn is a step. -/
theorem step_of_move {m : SessionMove} (h : w.move m = some (e, w')) : Step w e w' := by
  cases m with
  | begin what =>
    obtain ⟨rfl, rfl⟩ := Prod.mk.inj (Option.some.inj h)
    exact .begin what
  | go n =>
    simp only [move] at h
    split at h
    · rename_i hn
      split at h
      · simp at h
      · rename_i hturn
        obtain ⟨rfl, rfl⟩ := Prod.mk.inj (Option.some.inj h)
        exact .turn _ hn hturn
      · rename_i hturn
        obtain ⟨rfl, rfl⟩ := Prod.mk.inj (Option.some.inj h)
        exact .finish _ hn hturn
    · simp at h
  | drop n =>
    simp only [move] at h
    split at h
    · rename_i hn
      obtain ⟨rfl, rfl⟩ := Prod.mk.inj (Option.some.inj h)
      exact .drop hn
    · simp at h
  | observe =>
    obtain ⟨rfl, rfl⟩ := Prod.mk.inj (Option.some.inj h)
    exact .observe
  | launch =>
    simp only [move] at h
    split at h
    · rename_i hspec hidle
      obtain ⟨rfl, rfl⟩ := Prod.mk.inj (Option.some.inj h)
      exact .launch hspec hidle
    · simp at h
  | launched =>
    simp only [move] at h
    split at h
    · rename_i hspec hlaunching
      split at h
      · rename_i heq
        obtain ⟨rfl, rfl⟩ := Prod.mk.inj (Option.some.inj h)
        exact .launched _ hspec (heq ▸ hlaunching)
      · simp at h
    · simp at h
  | shake =>
    simp only [move] at h
    split at h
    · simp at h
    · rename_i hturn
      obtain ⟨rfl, rfl⟩ := Prod.mk.inj (Option.some.inj h)
      exact .shake hturn
    · rename_i hturn
      obtain ⟨rfl, rfl⟩ := Prod.mk.inj (Option.some.inj h)
      exact .shaken hturn
  | read =>
    simp only [move] at h
    split at h
    · simp at h
    · rename_i hclient
      obtain ⟨c', hread, heq⟩ := Option.map_eq_some_iff.mp h
      obtain ⟨rfl, rfl⟩ := Prod.mk.inj heq
      exact .read hclient hread rfl
  | serve bytes accepts ended =>
    obtain ⟨c, hclient, heq⟩ := Option.map_eq_some_iff.mp h
    obtain ⟨rfl, rfl⟩ := Prod.mk.inj heq
    exact .serve bytes accepts ended hclient
  | pass d =>
    obtain ⟨rfl, rfl⟩ := Prod.mk.inj (Option.some.inj h)
    exact .pass d

/-- Two schedules that can be followed one after the other give two runs. -/
theorem exists_runs_of_moves (w : SessionWorld) (before after : List SessionMove)
    (check : SessionWorld → List SessionEvent → SessionWorld → Bool)
    (h : ((play move w before).any fun x ↦ (play move x.2 after).any fun y ↦ check x.2 y.1 y.2) = true) :
    ∃ t u more v, Run Step w t u ∧ Run Step u more v ∧ check u more v = true := by
  obtain ⟨⟨t, u⟩, hbefore, h⟩ := (Option.any_eq_true ..).mp h
  obtain ⟨⟨more, v⟩, hafter, hcheck⟩ := (Option.any_eq_true ..).mp h
  have hmove (w : SessionWorld) (m : SessionMove) (e : SessionEvent) (w' : SessionWorld)
      (h : w.move m = some (e, w')) : Step w e w' := step_of_move h
  exact ⟨t, u, more, v, run_of_play hmove hbefore, run_of_play hmove hafter, hcheck⟩

end SessionWorld

end CodeNav
