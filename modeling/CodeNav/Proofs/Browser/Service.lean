import CodeNav.Browser.Service
import CodeNav.Proofs.Server.Hosts

/-!
# Requests in any order

Messages of the browser arrive at any time, and their handlers take turns in any order, with those
commands and searches that they wait for. Meanwhile sessions go on by themselves, and others change
checkouts. Any handler may be given up at any time.

What happens when turns are taken in a given order can be computed.

## Main definitions

* `ServiceWorld`: what handlers share, and the handlers of all messages that have arrived
* `ServiceEvent`: what is seen of messages, replies and sessions
* `ServiceWorld.Step`: how handlers, sessions and others take turns
* `ServiceMove`, `ServiceWorld.move`: one turn

## Main statements

* `ServiceWorld.step_of_move`: a turn is a step
-/

namespace CodeNav

/-- What is seen of messages, replies and sessions. Handlers are counted in the order in which their
messages arrive. -/
inductive ServiceEvent where
  | arrived (message : PageMessage)
  | replied (handler : Nat) (reply : Reply)
  | dropped (handler : Nat)
  /-- A session has gone on by itself. -/
  | inside (session : Nat) (e : SessionEvent)
  /-- Something else. -/
  | other

/-- What handlers share, and the handlers of all messages that have arrived; nothing is left of a handler
that is over. -/
structure ServiceWorld where
  state : ServiceState
  handlers : List (Option Handler)
  /-- What the launcher was called for, by the numbers of sessions. -/
  launching : Nat → Option LaunchSpec
  now : Nat

namespace ServiceWorld

/-- No message has arrived yet. -/
def create (root : Path) (options : SessionOptions) (checkouts : Checkouts) : ServiceWorld :=
  ⟨⟨.none root options, checkouts⟩, [], fun _ ↦ none, 0⟩

/-- A session. -/
def session? (w : ServiceWorld) (n : Nat) : Option Session := w.state.sessions.session? n

/-- The world with other sessions. -/
def withSessions (w : ServiceWorld) (r : Sessions) : ServiceWorld :=
  { w with state := w.state.withSessions r }

/-- How handlers, sessions and others take turns. -/
inductive Step (v : Service) (w : ServiceWorld) : ServiceEvent → ServiceWorld → Prop
  | arrive (message : PageMessage) :
      Step v w (.arrived message) { w with handlers := w.handlers ++ [some (.begin message)] }
  | turn {n : Nat} {h h' : Handler} {s : ServiceState} (strand : Nat) (news : HandlerNews)
      (hn : w.handlers[n]? = some (some h)) (hturn : h.turn v w.now strand news w.state = .moved h' s) :
      Step v w .other { w with state := s, handlers := w.handlers.set n (some h') }
  | finish {n : Nat} {h : Handler} {reply : Reply} {s : ServiceState} (strand : Nat)
      (news : HandlerNews) (hn : w.handlers[n]? = some (some h))
      (hturn : h.turn v w.now strand news w.state = .finished reply s) :
      Step v w (.replied n reply) { w with state := s, handlers := w.handlers.set n none }
  | drop {n : Nat} {h : Handler} (hn : w.handlers[n]? = some (some h)) :
      Step v w (.dropped n) { w with state := h.drop w.state, handlers := w.handlers.set n none }
  | inside {n : Nat} {e : SessionEvent} {r : Sessions} {launching : Nat → Option LaunchSpec}
      (h : Background w.now n w.state.sessions w.launching e r launching) :
      Step v w (.inside n e) { w.withSessions r with launching := launching }
  /-- Commands and other programs change files, and tell of their progress. -/
  | change (checkouts : Checkouts) :
      Step v w .other { w with state := w.state.withCheckouts checkouts }
  | pass (d : Nat) : Step v w .other { w with now := w.now + d }

end ServiceWorld

/-! ### Schedules -/

/-- Who takes a turn. -/
inductive ServiceMove where
  | arrive (message : PageMessage)
  /-- A handler goes on, or is over. -/
  | go (handler : Nat)
  /-- The command that a handler waits for has ended. -/
  | hear (handler : Nat) (status : Except String CommandStatus)
  | launch (session : Nat)
  /-- The launcher has started the server. -/
  | launched (session : Nat)
  /-- The handshake goes on, or is over. -/
  | shake (session : Nat)
  | read (session : Nat)
  | serve (session : Nat) (bytes : List UInt8)

namespace ServiceWorld

variable {v : Service} {w w' : ServiceWorld} {e : ServiceEvent}

/-- What comes of a turn of a handler, if it can go on. -/
def turnOf (v : Service) (w : ServiceWorld) (n : Nat) (news : HandlerNews) :
    Option (ServiceEvent × ServiceWorld) :=
  match w.handlers[n]? with
  | some (some h) =>
    match h.turn v w.now 0 news w.state with
    | .parked _ => none
    | .moved h s => some (.other, { w with state := s, handlers := w.handlers.set n (some h) })
    | .finished reply s =>
      some (.replied n reply, { w with state := s, handlers := w.handlers.set n none })
  | _ => none

theorem step_of_turnOf {n : Nat} {news : HandlerNews} (h : w.turnOf v n news = some (e, w')) :
    Step v w e w' := by
  simp only [turnOf] at h
  split at h
  · rename_i hn
    split at h
    · simp at h
    · rename_i hturn
      obtain ⟨rfl, rfl⟩ := Prod.mk.inj (Option.some.inj h)
      exact .turn 0 news hn hturn
    · rename_i hturn
      obtain ⟨rfl, rfl⟩ := Prod.mk.inj (Option.some.inj h)
      exact .finish 0 news hn hturn
  · simp at h

/-- What comes of a turn, if there is something to do. -/
def move (v : Service) (w : ServiceWorld) : ServiceMove → Option (ServiceEvent × ServiceWorld)
  | .arrive message =>
    some (.arrived message, { w with handlers := w.handlers ++ [some (.begin message)] })
  | .go n => w.turnOf v n .nothing
  | .hear n status => w.turnOf v n (.ended status)
  | .launch n =>
    match (w.session? n).map Session.handshake, w.launching n with
    | some (.launching spec), none =>
      some (.inside n (.launch spec), { w with launching := Function.update w.launching n (some spec) })
    | _, _ => none
  | .launched n =>
    match w.session? n with
    | none => none
    | some s =>
      match s.handshake, w.launching n with
      | .launching spec, some spec' =>
        if spec = spec' then
          some (.inside n (.launched (s.launched (.ok ())).handshake),
            { w.withSessions (w.state.sessions.put n (s.launched (.ok ()))) with
              launching := Function.update w.launching n none })
        else none
      | _, _ => none
  | .shake n =>
    match w.state.sessions.handshakeTurn w.now n with
    | .parked _ => none
    | .moved _ r => some (.inside n .other, w.withSessions r)
    | .finished _ r => some (.inside n .other, w.withSessions r)
  | .read n => (w.state.sessions.readerTurn n).map fun r ↦ (.inside n .other, w.withSessions r)
  | .serve n bytes =>
    match w.session? n with
    | none => none
    | some s => s.client.map fun c ↦ (.inside n .other, w.withSessions (w.state.sessions.put n
        (s.withClient { c with wire := c.wire.serve bytes true false })))

/-- What comes of a turn is a step. -/
theorem step_of_move {m : ServiceMove} (h : w.move v m = some (e, w')) : Step v w e w' := by
  cases m with
  | arrive message =>
    obtain ⟨rfl, rfl⟩ := Prod.mk.inj (Option.some.inj h)
    exact .arrive message
  | go n => exact step_of_turnOf h
  | hear n status => exact step_of_turnOf h
  | launch n =>
    simp only [move] at h
    split at h
    · rename_i spec hspec hidle
      obtain ⟨s, hs, hspec⟩ := Option.map_eq_some_iff.mp hspec
      obtain ⟨rfl, rfl⟩ := Prod.mk.inj (Option.some.inj h)
      exact .inside (.launch hs hspec hidle)
    · simp at h
  | launched n =>
    simp only [move] at h
    split at h
    · simp at h
    · rename_i s hs
      split at h
      · rename_i spec spec' hspec hlaunching
        split at h
        · rename_i heq
          obtain ⟨rfl, rfl⟩ := Prod.mk.inj (Option.some.inj h)
          exact .inside (.launched _ hs hspec (heq ▸ hlaunching))
        · simp at h
      · simp at h
  | shake n =>
    simp only [move] at h
    split at h
    · simp at h
    · rename_i hturn
      obtain ⟨rfl, rfl⟩ := Prod.mk.inj (Option.some.inj h)
      exact .inside (.shake hturn)
    · rename_i hturn
      obtain ⟨rfl, rfl⟩ := Prod.mk.inj (Option.some.inj h)
      exact .inside (.shaken hturn)
  | read n =>
    obtain ⟨r, hread, heq⟩ := Option.map_eq_some_iff.mp h
    obtain ⟨rfl, rfl⟩ := Prod.mk.inj heq
    exact .inside (.read hread)
  | serve n bytes =>
    simp only [move] at h
    split at h
    · simp at h
    · rename_i s hs
      obtain ⟨c, hclient, heq⟩ := Option.map_eq_some_iff.mp h
      obtain ⟨rfl, rfl⟩ := Prod.mk.inj heq
      exact .inside (.serve bytes true false hs hclient)

end ServiceWorld

end CodeNav
