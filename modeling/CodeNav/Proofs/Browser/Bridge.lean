import CodeNav.Browser.Bridge
import CodeNav.Proofs.Browser.Service
import CodeNav.Proofs.Server.Settling

/-!
# A bridge in any order

The browser writes to a bridge at any time, and hangs up at any time. The bridge reads what there is, its
handlers take turns in any order, and their replies are written; meanwhile sessions go on by themselves, and
others change checkouts. Once a server takes no messages, it takes none later: a pipe that is broken is not
mended.

What happens when turns are taken in a given order can be computed.

## Main definitions

* `BridgeWorld`: a bridge, with what the launcher was called for
* `BridgeEvent`: the handlers that are given up when the input has ended
* `BridgeWorld.Step`: how the browser, the bridge, sessions and others take turns
* `BridgeMove`, `BridgeWorld.move`: one turn

## Main statements

* `BridgeWorld.step_of_move`: a turn is a step
-/

namespace CodeNav

/-- What is seen of a bridge. -/
inductive BridgeEvent where
  /-- The input has ended, and the handlers that still go on are given up. -/
  | gaveUp (handlers : List (Option Handler))
  /-- Something else. -/
  | other

/-- A bridge, with what the launcher was called for, by the numbers of sessions. -/
structure BridgeWorld where
  bridge : Bridge
  launching : Nat → Option LaunchSpec
  now : Nat

namespace BridgeWorld

/-- Nothing has been read yet. -/
def create (root : Path) (options : SessionOptions) (checkouts : Checkouts) : BridgeWorld :=
  ⟨.opening ⟨.none root options, checkouts⟩, fun _ ↦ none, 0⟩

def sessions (w : BridgeWorld) : Sessions := w.bridge.state.sessions

/-- A session. -/
def session? (w : BridgeWorld) (n : Nat) : Option Session := w.sessions.session? n

/-- The world with another state of what handlers share. -/
def withState (w : BridgeWorld) (s : ServiceState) : BridgeWorld :=
  { w with bridge := { w.bridge with state := s } }

/-- How the browser, the bridge, sessions and others take turns. -/
inductive Step (v : Service) (w : BridgeWorld) : BridgeEvent → BridgeWorld → Prop
  /-- The browser writes. -/
  | send (bytes : List UInt8) (hopen : w.bridge.inputEnded = false) :
      Step v w .other { w with bridge := { w.bridge with input := w.bridge.input ++ bytes } }
  | hangUp : Step v w .other { w with bridge := { w.bridge with inputEnded := true } }
  | read {b : Bridge} (hinput : w.bridge.input ≠ []) (h : w.bridge.readTurn = some b) :
      Step v w .other { w with bridge := b }
  /-- The input has ended. -/
  | giveUp {b : Bridge} (hinput : w.bridge.input = []) (h : w.bridge.readTurn = some b) :
      Step v w (.gaveUp w.bridge.handlers) { w with bridge := b }
  | turn {n strand : Nat} {news : HandlerNews} {b : Bridge}
      (h : w.bridge.handlerTurn v w.now n strand news = .moved () b) :
      Step v w .other { w with bridge := b }
  /-- One of the last sessions is closed further. -/
  | close {strand : Nat} {b : Bridge} (h : w.bridge.closeTurn w.now strand = .moved () b) :
      Step v w .other { w with bridge := b }
  | write {b : Bridge} (h : w.bridge.writeTurn = some b) : Step v w .other { w with bridge := b }
  | inside {n : Nat} {e : SessionEvent} {r : Sessions} {launching : Nat → Option LaunchSpec}
      (h : Background w.now n w.sessions w.launching e r launching) (hbroken : w.sessions.StayBroken r) :
      Step v w .other { w.withState (w.bridge.state.withSessions r) with launching := launching }
  /-- Commands and other programs change files, and tell of their progress. -/
  | change (checkouts : Checkouts) :
      Step v w .other (w.withState (w.bridge.state.withCheckouts checkouts))
  | pass (d : Nat) : Step v w .other { w with now := w.now + d }

end BridgeWorld

/-! ### Schedules -/

/-- Who takes a turn. -/
inductive BridgeMove where
  /-- The browser writes. -/
  | send (bytes : List UInt8)
  | hangUp
  | read
  /-- A handler goes on, or is over. -/
  | go (handler : Nat)
  /-- One of the last sessions is closed further. -/
  | close (strand : Nat)
  | write
  /-- A session goes on by itself. -/
  | inside (move : ServiceMove)

namespace BridgeWorld

variable {v : Service} {w w' : BridgeWorld} {e : BridgeEvent}

/-- Whether all servers take messages. -/
def takesMessages (r : Sessions) : Bool :=
  r.all.all fun s ↦ s.client.all (·.wire.accepts)

theorem stayBroken_of_takesMessages {r r' : Sessions} (h : takesMessages r = true) : r.StayBroken r' := by
  intro n s s' c c' hs _ hc _ hrefuses
  have hall := List.all_eq_true.mp h s (List.mem_of_getElem? hs)
  rw [hc] at hall
  exact absurd (hrefuses.symm.trans hall) nofun

/-- What comes of a turn, if there is something to do. -/
def move (v : Service) (w : BridgeWorld) : BridgeMove → Option (BridgeEvent × BridgeWorld)
  | .send bytes =>
    if w.bridge.inputEnded then none
    else some (.other, { w with bridge := { w.bridge with input := w.bridge.input ++ bytes } })
  | .hangUp => some (.other, { w with bridge := { w.bridge with inputEnded := true } })
  | .read => w.bridge.readTurn.map fun b ↦
    (if w.bridge.input = [] then .gaveUp w.bridge.handlers else .other, { w with bridge := b })
  | .go n =>
    match w.bridge.handlerTurn v w.now n 0 .nothing with
    | .moved () b => some (.other, { w with bridge := b })
    | _ => none
  | .close strand =>
    match w.bridge.closeTurn w.now strand with
    | .moved () b => some (.other, { w with bridge := b })
    | _ => none
  | .write => w.bridge.writeTurn.map fun b ↦ (.other, { w with bridge := b })
  | .inside m =>
    if takesMessages w.sessions then
      match ServiceWorld.move v ⟨w.bridge.state, [], w.launching, w.now⟩ m with
      | some (.inside _ _, u) => some (.other, { w.withState u.state with launching := u.launching })
      | _ => none
    else none

/-- What comes of a turn is a step. -/
theorem step_of_move {m : BridgeMove} (h : w.move v m = some (e, w')) : Step v w e w' := by
  cases m with
  | send bytes =>
    simp only [move] at h
    split at h
    · cases h
    · rename_i hopen
      obtain ⟨rfl, rfl⟩ := Prod.mk.inj (Option.some.inj h)
      exact .send bytes (by simpa using hopen)
  | hangUp =>
    obtain ⟨rfl, rfl⟩ := Prod.mk.inj (Option.some.inj h)
    exact .hangUp
  | read =>
    obtain ⟨b, hread, heq⟩ := Option.map_eq_some_iff.mp h
    obtain ⟨rfl, rfl⟩ := Prod.mk.inj heq
    split
    · rename_i hinput
      exact .giveUp hinput hread
    · rename_i hinput
      exact .read hinput hread
  | go n =>
    simp only [move] at h
    split at h
    · rename_i hturn
      obtain ⟨rfl, rfl⟩ := Prod.mk.inj (Option.some.inj h)
      exact .turn hturn
    · cases h
  | close strand =>
    simp only [move] at h
    split at h
    · rename_i hturn
      obtain ⟨rfl, rfl⟩ := Prod.mk.inj (Option.some.inj h)
      exact .close hturn
    · cases h
  | write =>
    obtain ⟨b, hwrite, heq⟩ := Option.map_eq_some_iff.mp h
    obtain ⟨rfl, rfl⟩ := Prod.mk.inj heq
    exact .write hwrite
  | inside m =>
    simp only [move] at h
    split at h
    · rename_i htakes
      split at h
      · rename_i n e' u hmove
        obtain ⟨rfl, rfl⟩ := Prod.mk.inj (Option.some.inj h)
        generalize he : ServiceEvent.inside n e' = e'' at hmove
        have hstep := ServiceWorld.step_of_move hmove
        cases hstep with
        | inside hback => exact .inside hback (stayBroken_of_takesMessages htakes)
        | _ => cases he
      · cases h
    · cases h

end BridgeWorld

end CodeNav
