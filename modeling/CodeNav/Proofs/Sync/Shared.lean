import CodeNav.Proofs.FileSystem.Neighbours
import CodeNav.Proofs.Sync.Places
import Mathlib.Logic.Function.Basic

/-!
# Work on many checkouts

Repositories whose checkouts are beside each other are synchronized, removed and looked at in any order, and
their logs are read. The commands that are run for a repository do what a *runner* lets them do, which may
depend on the repository, on the command and what it has done so far, and on what is in the checkout; files
are changed in the checkout only.

What is *seen of one repository* are the events that are about it, with its calls numbered among themselves.

## Main definitions

* `SyncOptions.Estate`: repositories whose checkouts are beside each other
* `Runner`: what commands do
* `SharedWorld`, `SharedWorld.Step`: how calls, commands and readers take turns
* `View.of`: what is seen of one repository
-/

namespace CodeNav

open FileSystem (Contents Plots)

/-- Repositories whose checkouts are in plots beside each other. -/
structure SyncOptions.Estate (o : SyncOptions) extends Plots RepositoryKey where
  path : ∀ key, used key → (plot key).path = key.checkoutPath o.root
  differ : ∀ a b, used a → used b → a ≠ b → (a.checkoutPath o.root).same (b.checkoutPath o.root) = false

/-- One of the repositories, by itself. -/
def SyncOptions.Estate.only {o : SyncOptions} (E : o.Estate) (key : RepositoryKey) (h : E.used key) :
    o.Estate where
  toPlots := E.toPlots.only key h
  path k hk := by
    have hk : k = key := hk
    exact hk ▸ E.path key h
  differ a b ha hb hne := absurd ((ha : a = key).trans (hb : b = key).symm) hne

/-- What a command does while it is run. -/
inductive CommandAct where
  | prints (text : String)
  | changes (contents : Contents)
  | ends (status : Except String CommandStatus)

/-- What a command may do next that is run for a repository, when it has done some things and there is
something in the checkout. -/
abbrev Runner := RepositoryKey → Command → List CommandAct → Contents → CommandAct → Prop

/-- What is seen of work on checkouts. Calls are numbered in the order in which they begin. -/
inductive SharedEvent where
  | began (call : Nat) (order : CheckoutOrder)
  /-- A call is over as soon as it has begun. -/
  | refused (order : CheckoutOrder) (report : CheckoutReport)
  /-- A call has gone on, with some news, and others have to do something for it. -/
  | moved (call : Nat) (news : SyncNews) (wants : SyncWant)
  | returned (call : Nat) (news : SyncNews) (report : CheckoutReport)
  | dropped (call : Nat)
  /-- The command that is being run for a call has printed something. -/
  | printed (call : Nat) (text : String)
  /-- The command that is being run for a call has changed what is in the checkout. -/
  | changed (call : Nat) (contents : Contents)
  | inspected (url : String) (result : Except SyncError CheckoutInfo)
  /-- A reader has come to a log, and waits or is shown it at once. -/
  | watched (key : RepositoryKey) (limit : Nat) (found : ProgressWatch ⊕ ProgressSnapshot)
  /-- A reader that waited is shown the log. -/
  | shown (watch : ProgressWatch) (log : ProgressSnapshot)
  | passed (time : Nat)

/-- The checkouts and the calls on them, and what the command has done that is being run for a call. -/
structure SharedWorld extends CheckoutWorld where
  acts : Nat → List CommandAct

namespace SharedWorld

/-- Nothing has been asked of any checkout yet. -/
def start (fs : FileSystem) : SharedWorld := ⟨.start fs, fun _ ↦ []⟩

/-- A call begins. -/
def begin (w : SharedWorld) (k : CheckoutCall) (c : Checkouts) : SharedWorld where
  checkouts := c
  now := w.now
  calls := w.calls ++ [some k]
  acts := Function.update w.acts w.calls.length []

/-- A call has come to something else, or is over. If a command is then run for it, it has done nothing
yet. -/
def put (w : SharedWorld) (n : Nat) (k : Option CheckoutCall) (c : Checkouts) : SharedWorld where
  toCheckoutWorld := w.toCheckoutWorld.put n k c
  acts := Function.update w.acts n []

/-- The command that is being run for a call has done something. -/
def act (w : SharedWorld) (n : Nat) (a : CommandAct) (c : Checkouts) : SharedWorld where
  checkouts := c
  now := w.now
  calls := w.calls
  acts := Function.update w.acts n (w.acts n ++ [a])

/-- What is known of a checkout, by its address. -/
def inspect (o : SyncOptions) (url : String) (c : Checkouts) : Except SyncError CheckoutInfo :=
  match o.locate url with
  | .error e => .error e
  | .ok (_, path) => c.info path

/-- The command that is being run for a call may do something. -/
def Allows {o : SyncOptions} (E : o.Estate) (R : Runner) (w : SharedWorld) (n : Nat) (k : CheckoutCall)
    (a : CommandAct) : Prop :=
  ∃ command key, k.wants = .command command key ∧
    R key command (w.acts n) ((E.plot key).contents w.checkouts.fs) a

/-- How calls on repositories, commands and readers take turns. -/
inductive Step {o : SyncOptions} (E : o.Estate) (R : Runner) (w : SharedWorld) :
    SharedEvent → SharedWorld → Prop
  | begin {k : CheckoutCall} {c : Checkouts} (order : CheckoutOrder)
      (h : order.begin o w.checkouts = (.inl k, c)) (hkey : E.used k.key) :
      Step E R w (.began w.calls.length order) (w.begin k c)
  | refuse {r : CheckoutReport} {c : Checkouts} (order : CheckoutOrder)
      (h : order.begin o w.checkouts = (.inr r, c)) :
      Step E R w (.refused order r) { w with checkouts := c }
  | turn {n : Nat} {k k' : CheckoutCall} {c : Checkouts} (news : SyncNews) (hn : w.Active n k)
      (hnews : news.Answers k.wants) (hends : ∀ status, news = .ended status → w.Allows E R n k (.ends status))
      (h : k.turn o w.now news w.checkouts = .moved k' c) :
      Step E R w (.moved n news k'.wants) (w.put n (some k') c)
  | finish {n : Nat} {k : CheckoutCall} {r : CheckoutReport} {c : Checkouts} (news : SyncNews)
      (hn : w.Active n k) (hnews : news.Answers k.wants)
      (hends : ∀ status, news = .ended status → w.Allows E R n k (.ends status))
      (h : k.turn o w.now news w.checkouts = .finished r c) :
      Step E R w (.returned n news r) (w.put n none c)
  | drop {n : Nat} {k : CheckoutCall} (hn : w.Active n k) :
      Step E R w (.dropped n) (w.put n none (k.drop w.checkouts))
  | print {n : Nat} {k : CheckoutCall} {command : Command} {key : RepositoryKey} (text : String)
      (hn : w.Active n k) (hk : k.wants = .command command key) (hallowed : w.Allows E R n k (.prints text)) :
      Step E R w (.printed n text)
        (w.act n (.prints text) (w.checkouts.onLog key fun l ↦ l.append (command.redact text)))
  | change {n : Nat} {k : CheckoutCall} {fs : FileSystem} (hn : w.Active n k)
      (hworks : (E.plot k.key).Works w.checkouts.fs fs)
      (hallowed : w.Allows E R n k (.changes ((E.plot k.key).contents fs))) :
      Step E R w (.changed n ((E.plot k.key).contents fs))
        (w.act n (.changes ((E.plot k.key).contents fs)) { w.checkouts with fs := fs })
  | inspect (url : String) : Step E R w (.inspected url (inspect o url w.checkouts)) w
  | watch (key : RepositoryKey) (limit : Nat) :
      Step E R w (.watched key limit (ProgressWatch.start w.checkouts.board key w.now limit)) w
  | look {watch : ProgressWatch} {log : ProgressSnapshot} {board : ProgressBoard}
      (h : watch.turn w.now w.checkouts.board = .finished log board) :
      Step E R w (.shown watch log) w
  | pass (time : Nat) : Step E R w (.passed time) { w with now := w.now + time }

/-- The checkout is changed that a call is on. -/
theorem Step.change_of_key {o : SyncOptions} {E : o.Estate} {R : Runner} {w : SharedWorld} {n : Nat}
    {k : CheckoutCall} {key : RepositoryKey} {fs : FileSystem} (hn : w.Active n k) (hk : k.key = key)
    (hworks : (E.plot key).Works w.checkouts.fs fs)
    (hallowed : w.Allows E R n k (.changes ((E.plot key).contents fs))) :
    Step E R w (.changed n ((E.plot key).contents fs))
      (w.act n (.changes ((E.plot key).contents fs)) { w.checkouts with fs := fs }) := by
  subst hk
  exact .change hn hworks hallowed

end SharedWorld

/-! ### What is seen of one repository -/

/-- The repository at an address. -/
def RepositoryAddress.keyAt? (url : String) : Option RepositoryKey :=
  (parse url).toOption.map key

namespace SharedEvent

/-- The call on a repository that begins. -/
def begins? (key : RepositoryKey) : SharedEvent → Option Nat
  | began n order => if RepositoryAddress.keyAt? order.url = some key then some n else none
  | _ => none

/-- Whether an event is about a repository, on which there are some calls. -/
def concerns (key : RepositoryKey) (calls : List Nat) : SharedEvent → Bool
  | began n _ => n ∈ calls
  | refused _ _ => false
  | moved n _ _ => n ∈ calls
  | returned n _ _ => n ∈ calls
  | dropped n => n ∈ calls
  | printed n _ => n ∈ calls
  | changed n _ => n ∈ calls
  | inspected url _ => RepositoryAddress.keyAt? url = some key
  | watched k _ _ => k = key
  | shown watch _ => watch.key = key
  | passed _ => true

/-- The event with its call under another number. -/
def renumber (f : Nat → Nat) : SharedEvent → SharedEvent
  | began n order => began (f n) order
  | moved n news wants => moved (f n) news wants
  | returned n news report => returned (f n) news report
  | dropped n => dropped (f n)
  | printed n text => printed (f n) text
  | changed n contents => changed (f n) contents
  | e => e

end SharedEvent

/-- What is seen of one repository: the numbers of the calls on it, and the events that are about it. -/
structure View where
  calls : List Nat
  events : List SharedEvent

namespace View

/-- One more event is seen. Calls are numbered anew, in the order in which they begin. -/
def add (key : RepositoryKey) (v : View) (e : SharedEvent) : View :=
  let calls := v.calls ++ (e.begins? key).toList
  ⟨calls, if e.concerns key calls then v.events ++ [e.renumber calls.idxOf] else v.events⟩

/-- What is seen of one repository when some things happen. -/
def of (key : RepositoryKey) (t : List SharedEvent) : View := t.foldl (add key) ⟨[], []⟩

theorem of_concat (key : RepositoryKey) (t : List SharedEvent) (e : SharedEvent) :
    of key (t ++ [e]) = (of key t).add key e := by
  simp [of]

end View

end CodeNav
