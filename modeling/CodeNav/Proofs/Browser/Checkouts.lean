import CodeNav.Proofs.Browser.Turns
import CodeNav.Proofs.Sync.Logs

/-!
# Handlers and their calls on checkouts

A handler that synchronizes or removes a checkout takes out the session of its repository once the
commands have succeeded or the folder is gone. How such a call goes on is written here for both kinds of
calls at once, and what a call has done when it returns is told from whether it has waited for sessions.

## Main definitions

* `CheckoutCall.tellingTurn`: a call on a checkout goes on, and sessions are told of the change
* `CheckoutCall.Finishes`: the last command has succeeded, or the folder was removed
* `CheckoutCall.DidWork`: a call has changed its checkout
* `HandlerPhase.checkout?`: the call on a checkout that goes on for a handler

## Main statements

* `CheckoutCall.Returns.didWork_iff`: a call that has changed its checkout returns after sessions were told
* `Handler.phaseTurn_ofCheckout`: this is how a handler goes on with a call on a checkout
-/

namespace CodeNav

/-! ### Calls on checkouts, and the sessions that are told -/

/-- Whether a report says that the checkout has changed. -/
def CheckoutReport.changed : CheckoutReport → Bool
  | synchronized (.ok o) => o.action ≠ .skipped
  | removed (.ok _) => true
  | _ => false

namespace CheckoutCall

/-- A call on a checkout goes on with some news, while others change sessions. -/
def plainTurn (o : SyncOptions) (now : Nat) (news : SyncNews) (k : CheckoutCall) (s : ServiceState) :
    Turn ServiceState (CheckoutCall × Option Eviction) CheckoutReport :=
  ((k.turn o now news s.checkouts).lift s.withCheckouts).map (·, none) .finished

/-- A call on a checkout goes on. When the checkout has changed, the session of its repository is taken
out and closed first, and `e` tells how far this has come. -/
def tellingTurn (o : SyncOptions) (now : Nat) (news : HandlerNews) (k : CheckoutCall)
    (e : Option Eviction) (s : ServiceState) :
    Turn ServiceState (CheckoutCall × Option Eviction) CheckoutReport :=
  match k.wants, news with
  | .invalidation key, _ =>
    ((Eviction.turnFor s.fs now key e s.sessions).lift s.withSessions).map (fun e ↦ (k, some e))
      fun _ s ↦ k.plainTurn o now .invalidated s
  | .command _ _, .ended status => k.plainTurn o now (.ended status) s
  | _, _ => k.plainTurn o now .nothing s

/-- A call whose checkout has changed, and which waits until sessions are told. -/
def Tells (k : CheckoutCall) : Prop := k.wants = .invalidation k.key

/-- The last command of a synchronization has succeeded, or the folder of a checkout was removed. -/
inductive Finishes : CheckoutCall → CheckoutCall → Prop
  | commands {task : SyncTask} {place : PathLocks.Place} {run : SyncRun} {built : Bool} :
      Finishes (.sync ⟨task, .running place run⟩)
        (.sync ⟨task, .invalidating place run.action built⟩)
  | removal {key : RepositoryKey} {path : Path} {place : PathLocks.Place} :
      Finishes (.removal ⟨key, path, .removing place⟩)
        (.removal ⟨key, path, .invalidating place.slot⟩)

/-- A call that waits for others, and returns what another one has done. -/
def shares : CheckoutCall → Bool
  | sync ⟨_, .waiting _⟩ => true
  | _ => false

/-- A call that returns a report has changed its checkout, and does not share what another one did. -/
def DidWork (k : CheckoutCall) (x : CheckoutReport) : Prop := x.changed = true ∧ k.shares = false

variable {o : SyncOptions} {now : Nat} {c c' : Checkouts} {news : SyncNews} {k k' : CheckoutCall}
  {x : CheckoutReport}

/-- A call tells of its own repository. -/
theorem tells_of_wants {key : RepositoryKey} (h : k.wants = .invalidation key) : k.Tells ∧ k.key = key := by
  match k with
  | .sync ⟨t, phase⟩ =>
    cases phase with
    | invalidating => exact ⟨rfl, SyncWant.invalidation.inj h⟩
    | _ => cases h
  | .removal ⟨_, _, phase⟩ =>
    cases phase with
    | invalidating => exact ⟨rfl, SyncWant.invalidation.inj h⟩
    | _ => cases h

theorem Finishes.tells (h : Finishes k k') : ¬ k.Tells ∧ k'.Tells ∧ k'.key = k.key := by
  cases h <;> exact ⟨nofun, rfl, rfl⟩

theorem Begins.not_tells (h : Begins o c k c') : ¬ k.Tells ∧ k.action? = none := by
  cases h <;> exact ⟨nofun, rfl⟩

/-- A call goes on before its checkout has changed, or changes it. -/
theorem Moves.finishes (h : Moves o now c k news k' c') :
    ¬ k.Tells ∧ (k'.Tells → Finishes k k') := by
  cases h with
  | sync h =>
    cases h with
    | tell => exact ⟨nofun, fun _ ↦ .commands⟩
    | _ => exact ⟨nofun, nofun⟩
  | removal h =>
    cases h with
    | remove => exact ⟨nofun, fun _ ↦ .removal⟩
    | _ => exact ⟨nofun, nofun⟩

/-- A call returns after sessions were told, unless it has done no work. -/
theorem Returns.didWork_iff (h : Returns o now c k news x c') (hk : k.action? ≠ some .skipped) :
    k.DidWork x ↔ k.Tells := by
  have hnot : x.changed = false → ¬ k.Tells → (k.DidWork x ↔ k.Tells) := fun hx hk ↦
    ⟨fun hdid ↦ absurd (hx.symm.trans hdid.1) nofun, fun htells ↦ absurd htells hk⟩
  cases h with
  | sync h =>
    cases h with
    | skip | find => exact hnot (by simp [CheckoutReport.changed, Synchronization.skipped]) nofun
    | unprepared | fail => exact hnot rfl nofun
    | share => exact ⟨fun hdid ↦ absurd hdid.2 nofun, nofun⟩
    | told => exact ⟨fun _ ↦ rfl, fun _ ↦ ⟨decide_eq_true fun haction ↦ hk (congrArg some haction), rfl⟩⟩
  | removal h =>
    cases h with
    | missing | fail => exact hnot rfl nofun
    | told => exact ⟨fun _ ↦ rfl, fun _ ↦ ⟨rfl, rfl⟩⟩

section Turn

variable {news : HandlerNews} {s s' : ServiceState} {e e' : Option Eviction}

theorem plainTurn_eq_moved {news : SyncNews} (h : k.plainTurn o now news s = .moved (k', e') s') :
    Moves o now s.checkouts k news k' s'.checkouts ∧ e' = none ∧ s'.sessions = s.sessions := by
  rcases Turn.map_eq_moved.mp h with ⟨k₁, hlift, heq⟩ | ⟨_, _, -, hend⟩
  · obtain ⟨c, hturn, rfl⟩ := Turn.lift_eq_moved.mp hlift
    obtain ⟨rfl, rfl⟩ := Prod.mk.inj heq
    exact ⟨moves_of_turn hturn, rfl, rfl⟩
  · cases hend

theorem plainTurn_eq_finished {news : SyncNews} (h : k.plainTurn o now news s = .finished x s') :
    Returns o now s.checkouts k news x s'.checkouts ∧ s'.sessions = s.sessions := by
  obtain ⟨x₁, s₁, hlift, hend⟩ := Turn.map_eq_finished.mp h
  obtain ⟨c, hturn, rfl⟩ := Turn.lift_eq_finished.mp hlift
  obtain ⟨rfl, rfl⟩ := Turn.finished.inj hend
  exact ⟨returns_of_turn hturn, rfl⟩

/-- Before its checkout has changed, a call goes on as if there were no sessions. -/
theorem tellingTurn_of_not_tells (o : SyncOptions) (now : Nat) (news : HandlerNews)
    (e : Option Eviction) (s : ServiceState) (h : ¬ k.Tells) : ∃ told : SyncNews,
      k.tellingTurn o now news e s = k.plainTurn o now told s := by
  simp only [tellingTurn]
  split
  · rename_i hwants
    exact absurd (tells_of_wants hwants).1 h
  · exact ⟨_, rfl⟩
  · exact ⟨_, rfl⟩

theorem tellingTurn_of_tells (h : k.Tells) : k.tellingTurn o now news e s =
    ((Eviction.turnFor s.fs now k.key e s.sessions).lift s.withSessions).map (fun e ↦ (k, some e))
      fun _ s ↦ k.plainTurn o now .invalidated s := by
  have hwants : k.wants = .invalidation k.key := h
  simp only [tellingTurn, hwants]

/-- How a call on a checkout goes on, and what it does to sessions. -/
theorem tellingTurn_eq_moved (h : k.tellingTurn o now news e s = .moved (k', e') s') :
    (¬ k.Tells ∧ (∃ told, Moves o now s.checkouts k told k' s'.checkouts) ∧ e' = none ∧
        s'.sessions = s.sessions) ∨
      k.Tells ∧ k' = k ∧ ∃ e₁ r, e' = some e₁ ∧ s'.sessions = r ∧
        Eviction.turnFor s.fs now k.key e s.sessions = .moved e₁ r := by
  by_cases hk : k.Tells
  · rw [tellingTurn_of_tells hk] at h
    rcases Turn.map_eq_moved.mp h with ⟨e₁, hlift, heq⟩ | ⟨any, s₁, -, hend⟩
    · obtain ⟨r, hturn, rfl⟩ := Turn.lift_eq_moved.mp hlift
      obtain ⟨rfl, rfl⟩ := Prod.mk.inj heq
      exact Or.inr ⟨hk, rfl, e₁, r, rfl, rfl, hturn⟩
    · exact absurd hk (plainTurn_eq_moved hend).1.finishes.1
  · obtain ⟨told, heq⟩ := tellingTurn_of_not_tells o now news e s hk
    rw [heq] at h
    obtain ⟨hmoves, he', hs'⟩ := plainTurn_eq_moved h
    exact Or.inl ⟨hk, ⟨told, hmoves⟩, he', hs'⟩

/-- How a call on a checkout returns, and what it does to sessions. -/
theorem tellingTurn_eq_finished (h : k.tellingTurn o now news e s = .finished x s') :
    (∃ c told c', Returns o now c k told x c') ∧
      (¬ k.Tells ∧ s'.sessions = s.sessions ∨
        k.Tells ∧ ∃ any r, s'.sessions = r ∧
          Eviction.turnFor s.fs now k.key e s.sessions = .finished any r) := by
  by_cases hk : k.Tells
  · rw [tellingTurn_of_tells hk] at h
    obtain ⟨any, s₁, hlift, hend⟩ := Turn.map_eq_finished.mp h
    obtain ⟨r, hturn, rfl⟩ := Turn.lift_eq_finished.mp hlift
    obtain ⟨hreturns, hs'⟩ := plainTurn_eq_finished hend
    exact ⟨⟨_, _, _, hreturns⟩, Or.inr ⟨hk, any, r, hs', hturn⟩⟩
  · obtain ⟨told, heq⟩ := tellingTurn_of_not_tells o now news e s hk
    rw [heq] at h
    obtain ⟨hreturns, hs'⟩ := plainTurn_eq_finished h
    exact ⟨⟨_, _, _, hreturns⟩, Or.inl ⟨hk, hs'⟩⟩

end Turn

end CheckoutCall

/-! ### What goes on in a handler -/

namespace HandlerPhase

/-- The call on a checkout that goes on for a handler, and the session that it has taken out. -/
def checkout? : HandlerPhase → Option (CheckoutCall × Option Eviction)
  | synchronizing _ call e => some (.sync call, e)
  | removing call e => some (.removal call, e)
  | _ => none

/-- A handler goes on with a call on a checkout. -/
def ofCheckout (request : Request) : CheckoutCall × Option Eviction → HandlerPhase
  | (.sync call, e) => .synchronizing request call e
  | (.removal call, e) => .removing call e

/-- A handler that has done nothing yet but for a checkout, and whose checkout has not changed. -/
def Quiet : HandlerPhase → Prop
  | arrived => True
  | loading _ => True
  | loaded _ _ => True
  | synchronizing _ call _ => ¬ (CheckoutCall.sync call).Tells
  | removing call _ => ¬ (CheckoutCall.removal call).Tells
  | _ => False

/-- A handler whose call on a checkout says that it does something. -/
def Acting (p : HandlerPhase) : Prop := ∀ k e, p.checkout? = some (k, e) → k.action? ≠ some .skipped

theorem exists_ofCheckout {p : HandlerPhase} {k : CheckoutCall} {e : Option Eviction}
    (h : p.checkout? = some (k, e)) : ∃ request, p = ofCheckout request (k, e) := by
  cases p with
  | synchronizing request call e' =>
    obtain ⟨rfl, rfl⟩ := Prod.mk.inj (Option.some.inj h)
    exact ⟨request, rfl⟩
  | removing call e' =>
    obtain ⟨rfl, rfl⟩ := Prod.mk.inj (Option.some.inj h)
    exact ⟨.reset, rfl⟩
  | _ => cases h

@[simp]
theorem checkout?_ofCheckout (request : Request) (x : CheckoutCall × Option Eviction) :
    (ofCheckout request x).checkout? = some x := by
  obtain ⟨_ | _, e⟩ := x <;> rfl

theorem quiet_ofCheckout {request : Request} {k : CheckoutCall} {e : Option Eviction} :
    (ofCheckout request (k, e)).Quiet ↔ ¬ k.Tells := by
  cases k <;> rfl

/-- A handler whose checkout has changed is no longer quiet. -/
theorem not_quiet_of_tells {p : HandlerPhase} {k : CheckoutCall} {e : Option Eviction}
    (h : p.checkout? = some (k, e)) (hk : k.Tells) : ¬ p.Quiet := by
  obtain ⟨request, rfl⟩ := exists_ofCheckout h
  exact fun hquiet ↦ quiet_ofCheckout.mp hquiet hk

/-- A phase without a call on a checkout. -/
theorem acting_of_none {p : HandlerPhase} (h : p.checkout? = none) : p.Acting :=
  fun _ _ hk ↦ absurd (h.symm.trans hk) nofun

end HandlerPhase

namespace Handler

open HandlerPhase (ofCheckout)

variable {v : Service} {now strand : Nat} {news : HandlerNews} {name : String} {request : Request}
  {m : PageMessage} {s s' : ServiceState} {p p' : HandlerPhase} {reply : Reply}

/-- What a handler does when its call on a checkout has returned. -/
def reported (v : Service) (name : String) (request : Request) :
    CheckoutReport → ServiceState → HandlerTurn
  | .synchronized x, s => synchronized v name request x s
  | .removed x, s => .finished (removalReply name x) s

theorem idles_reported {r : Sessions} (x : CheckoutReport) (hs : s.sessions = r) :
    Comes (HandlerPhase.Idles r) (reported v name request x s) := by
  cases x with
  | removed => exact idles_finished hs
  | synchronized x => exact idles_synchronized x hs

/-- This is how a handler goes on with a call on a checkout. -/
theorem phaseTurn_ofCheckout (k : CheckoutCall) (e : Option Eviction) :
    phaseTurn v now strand news m (ofCheckout request (k, e)) s =
      (k.tellingTurn v.sync now news e s).map (ofCheckout request) (reported v m.name request) := by
  have hsync : ∀ (told : SyncNews) (call : Synchronization) (s : ServiceState),
      syncTurn v now m.name request told call s =
        ((CheckoutCall.sync call).plainTurn v.sync now told s).map (ofCheckout request)
          (reported v m.name request) := by
    intro told call s
    simp only [syncTurn, CheckoutCall.plainTurn, CheckoutCall.turn]
    cases call.turn v.sync now told s.checkouts <;> rfl
  have hremoval : ∀ (told : SyncNews) (call : Removal) (s : ServiceState),
      removalTurn m.name told call s =
        ((CheckoutCall.removal call).plainTurn v.sync now told s).map (ofCheckout request)
          (reported v m.name request) := by
    intro told call s
    simp only [removalTurn, CheckoutCall.plainTurn, CheckoutCall.turn]
    cases call.turn told s.checkouts <;> rfl
  cases k with
  | sync call =>
    simp only [ofCheckout, phaseTurn, CheckoutCall.tellingTurn, CheckoutCall.wants, passWord]
    cases hwants : call.wants with
    | nothing => exact hsync _ _ _
    | command c key => cases news <;> exact hsync _ _ _
    | invalidation key =>
      dsimp only
      cases Eviction.turnFor s.fs now key e s.sessions with
      | parked | moved => rfl
      | finished any r => exact hsync _ _ _
  | removal call =>
    simp only [ofCheckout, phaseTurn, CheckoutCall.tellingTurn, CheckoutCall.wants, passWord]
    cases hwants : call.wants with
    | nothing => exact hremoval _ _ _
    | command c key =>
      -- No command is run for a removal.
      obtain ⟨_, _, phase⟩ := call
      cases phase <;> cases hwants
    | invalidation key =>
      dsimp only
      cases Eviction.turnFor s.fs now key e s.sessions with
      | parked | moved => rfl
      | finished any r => exact hremoval _ _ _

end Handler

end CodeNav
