import CodeNav.Proofs.Run
import CodeNav.Sync.Removal

/-!
# Calls on checkouts

Callers synchronize checkouts and remove them, in any number and any order, and give up their calls
when they like. What a call asks others to do is done when they like: a command that is being run
prints what it likes and ends as it likes, and the files are changed by it, and by others, at any
time.

## Main definitions

* `CheckoutCall`: a call, with `CheckoutOrder.begin` and `CheckoutCall.turn`
* `CheckoutWorld`: the checkouts, and the calls that were made on them
* `CheckoutEvent`: what is seen of calls
* `CheckoutWorld.Step`: how calls, commands and others take turns
* `CheckoutWorld.play`: what happens when turns are taken in a given order

## Main statements

* `CheckoutWorld.run_of_play`: turns in a given order make a run
-/

namespace CodeNav

/-- What is asked of a checkout. -/
inductive CheckoutOrder where
  | synchronize (url : String) (force : Bool) (token : Option String)
  | remove (url : String)

/-- A call on a checkout. -/
inductive CheckoutCall where
  | sync (s : Synchronization)
  | removal (r : Removal)
  deriving DecidableEq

/-- What a call returns. -/
inductive CheckoutReport where
  | synchronized (result : SyncResult)
  | removed (result : Except SyncError Path)

/-- A call begins, unless it is over at once. -/
def CheckoutOrder.begin (o : SyncOptions) (order : CheckoutOrder) (c : Checkouts) :
    (CheckoutCall ⊕ CheckoutReport) × Checkouts :=
  match order with
  | synchronize url force token =>
    (Synchronization.begin o url force token c).map
      (Sum.map .sync .synchronized) id
  | remove url => (Removal.begin o url c).map (Sum.map .removal .removed) id

namespace CheckoutCall

/-- The repository of a call. -/
def key : CheckoutCall → RepositoryKey
  | sync s => s.task.address.key
  | removal r => r.key

/-- The folder that a call works on. -/
def path : CheckoutCall → Path
  | sync s => s.task.path
  | removal r => r.path

/-- What others have to do for a call. -/
def wants : CheckoutCall → SyncWant
  | sync s => s.wants
  | removal r => r.wants

/-- A call goes on. -/
def turn (o : SyncOptions) (now : Nat) (news : SyncNews) (k : CheckoutCall) (c : Checkouts) :
    Turn Checkouts CheckoutCall CheckoutReport :=
  match k with
  | sync s => (s.turn o now news c).map .sync fun r c => .finished (.synchronized r) c
  | removal r => (r.turn news c).map .removal fun r c => .finished (.removed r) c

/-- A call is given up. -/
def drop (k : CheckoutCall) (c : Checkouts) : Checkouts :=
  match k with
  | sync s => s.drop c
  | removal r => r.drop c

end CheckoutCall

/-- News is about what a call has asked for. -/
def SyncNews.Answers : SyncNews → SyncWant → Prop
  | nothing, _ => True
  | ended _, .command _ _ => True
  | invalidated, .invalidation _ => True
  | _, _ => False

/-- What is seen of calls. They are numbered in the order in which they begin. -/
inductive CheckoutEvent where
  | began (call : Nat) (what : CheckoutCall)
  /-- A call is over as soon as it has begun. -/
  | refused (report : CheckoutReport)
  /-- A call has gone on, with some news. -/
  | moved (call : Nat) (before : CheckoutCall) (news : SyncNews) (after : CheckoutCall)
  | returned (call : Nat) (before : CheckoutCall) (news : SyncNews) (report : CheckoutReport)
  | dropped (call : Nat) (before : CheckoutCall)
  /-- The command that is being run for a call has printed something. -/
  | printed (call : Nat) (text : String)
  /-- A command, or somebody else, has changed files. -/
  | changed
  | passed (time : Nat)

/-- The call that was under way and that an event is about. -/
def CheckoutEvent.call? : CheckoutEvent → Option Nat
  | moved n _ _ _ => some n
  | returned n _ _ _ => some n
  | dropped n _ => some n
  | _ => none

/-- How a synchronization stood that has returned an outcome, and the outcome. -/
def CheckoutEvent.success? (n : Nat) : CheckoutEvent → Option (Synchronization × SyncOutcome)
  | returned m (.sync s) _ (.synchronized (.ok r)) => if m = n then some (s, r) else none
  | _ => none

theorem CheckoutEvent.success?_eq_some {e : CheckoutEvent} {n : Nat} {s : Synchronization}
    {r : SyncOutcome} (h : e.success? n = some (s, r)) :
    ∃ news, e = .returned n (.sync s) news (.synchronized (.ok r)) := by
  unfold success? at h
  split at h
  · obtain ⟨rfl, hsr⟩ := Option.ite_none_right_eq_some.mp h
    obtain ⟨rfl, rfl⟩ := Prod.mk.inj (Option.some.inj hsr)
    exact ⟨_, rfl⟩
  · simp at h

/-- The checkouts, the time, and all calls that were made; a call is no more there when it is over. -/
structure CheckoutWorld where
  checkouts : Checkouts
  now : Nat
  calls : List (Option CheckoutCall)

namespace CheckoutWorld

/-- Nothing has been asked of any checkout yet. -/
def start (fs : FileSystem) : CheckoutWorld := ⟨⟨fs, .none, .empty⟩, 0, []⟩

/-- A call that is under way. -/
def Active (w : CheckoutWorld) (n : Nat) (k : CheckoutCall) : Prop := w.calls[n]? = some (some k)

/-- A call has come to something else, or is over. -/
def put (w : CheckoutWorld) (n : Nat) (k : Option CheckoutCall) (c : Checkouts) : CheckoutWorld :=
  { w with checkouts := c, calls := w.calls.set n k }

/-- How calls, commands and others take turns. -/
inductive Step (o : SyncOptions) (w : CheckoutWorld) : CheckoutEvent → CheckoutWorld → Prop
  | begin {k : CheckoutCall} {c : Checkouts} (order : CheckoutOrder)
      (h : order.begin o w.checkouts = (.inl k, c)) :
      Step o w (.began w.calls.length k) { w with checkouts := c, calls := w.calls ++ [some k] }
  | refuse {r : CheckoutReport} {c : Checkouts} (order : CheckoutOrder)
      (h : order.begin o w.checkouts = (.inr r, c)) :
      Step o w (.refused r) { w with checkouts := c }
  | turn {n : Nat} {k k' : CheckoutCall} {c : Checkouts} (news : SyncNews) (hn : w.Active n k)
      (hnews : news.Answers k.wants) (h : k.turn o w.now news w.checkouts = .moved k' c) :
      Step o w (.moved n k news k') (w.put n (some k') c)
  | finish {n : Nat} {k : CheckoutCall} {r : CheckoutReport} {c : Checkouts} (news : SyncNews)
      (hn : w.Active n k) (hnews : news.Answers k.wants)
      (h : k.turn o w.now news w.checkouts = .finished r c) :
      Step o w (.returned n k news r) (w.put n none c)
  | drop {n : Nat} {k : CheckoutCall} (hn : w.Active n k) :
      Step o w (.dropped n k) (w.put n none (k.drop w.checkouts))
  | print {n : Nat} {k : CheckoutCall} {command : Command} {key : RepositoryKey} (text : String)
      (hn : w.Active n k) (hk : k.wants = .command command key) :
      Step o w (.printed n text)
        { w with checkouts := w.checkouts.onLog key fun l ↦ l.append (command.redact text) }
  | change (fs : FileSystem) :
      Step o w .changed { w with checkouts := { w.checkouts with fs := fs } }
  | pass (time : Nat) : Step o w (.passed time) { w with now := w.now + time }

end CheckoutWorld

/-! ### Schedules -/

/-- What may happen next. -/
inductive CheckoutMove where
  | call (order : CheckoutOrder)
  | go (call : Nat) (news : SyncNews)
  | drop (call : Nat)
  | change (fs : FileSystem)

namespace CheckoutWorld

variable {o : SyncOptions} {w w' : CheckoutWorld} {e : CheckoutEvent}

instance (news : SyncNews) (want : SyncWant) : Decidable (news.Answers want) := by
  cases news <;> cases want <;> simp only [SyncNews.Answers] <;> infer_instance

/-- What is seen when something happens, and the state that it leads to. -/
def move (o : SyncOptions) (w : CheckoutWorld) : CheckoutMove → Option (CheckoutEvent × CheckoutWorld)
  | .call order =>
    match order.begin o w.checkouts with
    | (.inl k, c) =>
      some (.began w.calls.length k, { w with checkouts := c, calls := w.calls ++ [some k] })
    | (.inr r, c) => some (.refused r, { w with checkouts := c })
  | .go n news =>
    match w.calls[n]? with
    | some (some k) =>
      if news.Answers k.wants then
        match k.turn o w.now news w.checkouts with
        | .parked _ => none
        | .moved k' c => some (.moved n k news k', w.put n (some k') c)
        | .finished r c => some (.returned n k news r, w.put n none c)
      else none
    | _ => none
  | .drop n =>
    match w.calls[n]? with
    | some (some k) => some (.dropped n k, w.put n none (k.drop w.checkouts))
    | _ => none
  | .change fs => some (.changed, { w with checkouts := { w.checkouts with fs := fs } })

theorem step_of_move {m : CheckoutMove} (h : w.move o m = some (e, w')) : Step o w e w' := by
  cases m with
  | call order =>
    simp only [move] at h
    split at h
    · rename_i k c hbegin
      obtain ⟨rfl, rfl⟩ := Prod.mk.inj (Option.some.inj h)
      exact .begin order hbegin
    · rename_i r c hbegin
      obtain ⟨rfl, rfl⟩ := Prod.mk.inj (Option.some.inj h)
      exact .refuse order hbegin
  | go n news =>
    simp only [move] at h
    split at h
    · rename_i k hn
      split at h
      · rename_i hnews
        split at h
        · simp at h
        · rename_i k' c hturn
          obtain ⟨rfl, rfl⟩ := Prod.mk.inj (Option.some.inj h)
          exact .turn news hn hnews hturn
        · rename_i r c hturn
          obtain ⟨rfl, rfl⟩ := Prod.mk.inj (Option.some.inj h)
          exact .finish news hn hnews hturn
      · simp at h
    · simp at h
  | drop n =>
    simp only [move] at h
    split at h
    · rename_i k hn
      obtain ⟨rfl, rfl⟩ := Prod.mk.inj (Option.some.inj h)
      exact .drop hn
    · simp at h
  | change fs =>
    obtain ⟨rfl, rfl⟩ := Prod.mk.inj (Option.some.inj h)
    exact .change fs

variable {A : CheckoutWorld → CheckoutEvent → CheckoutWorld → Prop} [∀ u e v, Decidable (A u e v)]

variable (o A) in
/-- What is seen when things happen one after the other, as far as `A` allows them. -/
def play (w : CheckoutWorld) : List CheckoutMove → Option (List CheckoutEvent × CheckoutWorld)
  | [] => some ([], w)
  | m :: rest =>
    match w.move o m with
    | none => none
    | some (e, u) => if A w e u then (play u rest).map (Prod.map (e :: ·) id) else none

/-- A schedule gives a run. -/
theorem run_of_play {moves : List CheckoutMove} {events : List CheckoutEvent}
    (h : w.play o A moves = some (events, w')) :
    Run (fun u e v ↦ Step o u e v ∧ A u e v) w events w' := by
  induction moves generalizing w events with
  | nil =>
    obtain ⟨rfl, rfl⟩ := Prod.mk.inj (Option.some.inj h)
    exact .nil
  | cons m rest ih =>
    simp only [play] at h
    split at h
    · simp at h
    · rename_i e u hmove
      split at h
      · rename_i hallowed
        obtain ⟨⟨later, v⟩, hplay, heq⟩ := Option.map_eq_some_iff.mp h
        obtain ⟨rfl, rfl⟩ := Prod.mk.inj heq
        exact (Run.nil.snoc ⟨step_of_move hmove, hallowed⟩).append (ih hplay)
      · simp at h

variable (o w A) in
/-- A schedule and a last move, with which a synchronization returns an outcome, give a run and a last
step, of which is true what was computed. -/
theorem return_of_play (moves : List CheckoutMove) (m : CheckoutMove) (n : Nat)
    (check : List CheckoutEvent → CheckoutWorld → Synchronization → SyncOutcome → Bool)
    (h : ((w.play o A moves).any fun x ↦ (x.2.move o m).any fun y ↦
      (y.1.success? n).any fun z ↦ check x.1 x.2 z.1 z.2) = true) :
    ∃ events u s news r v, Run (fun u e v ↦ Step o u e v ∧ A u e v) w events u ∧
      Step o u (.returned n (.sync s) news (.synchronized (.ok r))) v ∧
      check events u s r = true := by
  obtain ⟨⟨events, u⟩, hplay, hlast⟩ := (Option.any_eq_true ..).mp h
  obtain ⟨⟨e, v⟩, hmove, hsuccess⟩ := (Option.any_eq_true ..).mp hlast
  obtain ⟨⟨s, r⟩, hreturn, hcheck⟩ := (Option.any_eq_true ..).mp hsuccess
  obtain ⟨news, rfl⟩ := CheckoutEvent.success?_eq_some hreturn
  exact ⟨events, u, s, news, r, v, run_of_play hplay, step_of_move hmove, hcheck⟩

end CheckoutWorld

/-- Options with which checkouts are in one folder, and nothing is built. -/
def SyncOptions.plain : SyncOptions := ⟨⟨"/c"⟩, "git", [], none⟩

/-- The files when there are only a folder and those above it. -/
def FileSystem.withFolder (names : List (List Char)) : FileSystem :=
  ⟨names.inits.tail.map fun place ↦ (place, .dir 0)⟩

/-- The files when there is only the checkout of the repository at `https://github.com/o/r`. -/
def FileSystem.withCheckout : FileSystem :=
  .withFolder [['c'], "github.com".toList, ['o'], ['r']]

end CodeNav
