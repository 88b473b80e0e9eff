import CodeNav.Proofs.Sync.Calls
import CodeNav.Proofs.Turns

/-!
# What calls on checkouts do

A turn of a call does one of a few things, which are said here once: where the call stands before and
after, under which condition it goes on that way, and what it does to files, locks and logs.

## Main definitions

* `Synchronization.Moves`, `Synchronization.Returns`: what a synchronization does
* `Removal.Moves`, `Removal.Returns`: what a removal does
* `CheckoutCall.Begins`, `CheckoutCall.Moves`, `CheckoutCall.Returns`: what a call does

## Main statements

* `CheckoutCall.begins_of_begin`, `CheckoutCall.moves_of_turn`, `CheckoutCall.returns_of_turn`: calls
  do nothing else
* `CheckoutWorld.Step.active`: where a call that is under way comes from
* `CheckoutWorld.active_of_run`: what all calls have from their beginning on
-/

namespace CodeNav

namespace Checkouts

/-- Work in a slot has come to an outcome, and the slot is given up. -/
def concluded (c : Checkouts) (place : PathLocks.Place) (r : SyncResult) : Checkouts :=
  c.withLocks ((c.locks.finish place r).release place.slot)

/-- A place and its slot are given up. -/
def given (c : Checkouts) (place : PathLocks.Place) : Checkouts :=
  c.withLocks ((c.locks.leave place).release place.slot)

/-- The files after the folder above a path was made, if there is one above it. -/
def makeAbove (c : Checkouts) (p : Path) : Except FileSystem.Cause FileSystem :=
  match p.parent? with
  | none => .ok c.fs
  | some parent => c.fs.makeDirs parent

end Checkouts

namespace Synchronization

variable {o : SyncOptions} {now : Nat} {c c' : Checkouts} {news : SyncNews}
  {s s' : Synchronization} {r : SyncResult}

/-- How a synchronization goes on. -/
inductive Moves (o : SyncOptions) (now : Nat) (c : Checkouts) :
    Synchronization → SyncNews → Synchronization → Checkouts → Prop
  | look {t : SyncTask} {news : SyncNews} :
      Moves o now c ⟨t, .looking⟩ news ⟨t, .looked (c.fs.present t.path)⟩ c
  | arrive {t : SyncTask} {present : Bool} {news : SyncNews}
      (h : present = false ∨ c.locks.isHeld t.path = true) :
      Moves o now c ⟨t, .looked present⟩ news (arrive t c).1 (arrive t c).2
  | enter {t : SyncTask} {place : PathLocks.Place} {news : SyncNews}
      (h : c.locks.admission place = .granted) :
      Moves o now c ⟨t, .waiting place⟩ news ⟨t, .checking place⟩ c
  | check {t : SyncTask} {place : PathLocks.Place} {news : SyncNews} :
      Moves o now c ⟨t, .checking place⟩ news ⟨t, .checked place (c.fs.present t.path)⟩ c
  | pull {t : SyncTask} {place : PathLocks.Place} {news : SyncNews} (h : t.force = true) :
      Moves o now c ⟨t, .checked place true⟩ news
        (run o t now place (o.pullCommand t.path) .updated false)
        { c with board := c.board.begin t.address.key }
  | prepare {t : SyncTask} {place : PathLocks.Place} {news : SyncNews} :
      Moves o now c ⟨t, .checked place false⟩ news ⟨t, .preparing place⟩
        { c with board := c.board.begin t.address.key }
  | clone {t : SyncTask} {place : PathLocks.Place} {news : SyncNews} {fs : FileSystem}
      (h : c.makeAbove t.path = .ok fs) :
      Moves o now c ⟨t, .preparing place⟩ news
        (run o t now place (o.cloneCommand t.address t.path t.token) .cloned false)
        { c with fs := fs }
  | build {t : SyncTask} {place : PathLocks.Place} {r : SyncRun} {status : CommandStatus}
      {build : Command} (h : status.isSuccess = true) (hgit : r.isBuild = false)
      (hbuild : o.buildCommandIn t.path = some build) :
      Moves o now c ⟨t, .running place r⟩ (.ended (.ok status))
        (run o t now place build r.action true)
        (c.onLog t.address.key (·.append ("\n$ " ++ build.display ++ "\n")))
  | tell {t : SyncTask} {place : PathLocks.Place} {r : SyncRun} {status : CommandStatus}
      {built : Bool} (h : status.isSuccess = true) (hbuilt : r.isBuild = built)
      (hlast : built = true ∨ o.buildCommandIn t.path = none) :
      Moves o now c ⟨t, .running place r⟩ (.ended (.ok status))
        ⟨t, .invalidating place r.action built⟩ (c.onLog t.address.key (·.finish false))

/-- How a synchronization comes to its end. -/
inductive Returns (o : SyncOptions) (now : Nat) (c : Checkouts) :
    Synchronization → SyncNews → SyncResult → Checkouts → Prop
  | skip {t : SyncTask} {news : SyncNews} (h : c.locks.isHeld t.path = false) :
      Returns o now c ⟨t, .looked true⟩ news (.ok (skipped t)) c
  | share {t : SyncTask} {place : PathLocks.Place} {news : SyncNews} {r : SyncResult}
      (h : c.locks.admission place = .overtaken r) :
      Returns o now c ⟨t, .waiting place⟩ news r (c.given place)
  | find {t : SyncTask} {place : PathLocks.Place} {news : SyncNews} (h : t.force = false) :
      Returns o now c ⟨t, .checked place true⟩ news (.ok (skipped t))
        (c.concluded place (.ok (skipped t)))
  | unprepared {t : SyncTask} {place : PathLocks.Place} {news : SyncNews}
      {cause : FileSystem.Cause} {e : SyncError} (h : c.makeAbove t.path = .error cause) :
      Returns o now c ⟨t, .preparing place⟩ news (.error e)
        ((c.logFailure t.address.key e).concluded place (.error e))
  | fail {t : SyncTask} {place : PathLocks.Place} {run : SyncRun} {news : SyncNews} {e : SyncError}
      (h : ∀ status, news = .ended (.ok status) → status.isSuccess = false) :
      Returns o now c ⟨t, .running place run⟩ news (.error e)
        ((c.logFailure t.address.key e).concluded place (.error e))
  | told {t : SyncTask} {place : PathLocks.Place} {action : SyncAction} {built : Bool} :
      Returns o now c ⟨t, .invalidating place action built⟩ .invalidated
        (.ok ⟨t.address.key, t.path, action, built⟩)
        (c.concluded place (.ok ⟨t.address.key, t.path, action, built⟩))

theorem commandEnded_eq_moved {t : SyncTask} {place : PathLocks.Place} {run : SyncRun}
    {status : Except String CommandStatus}
    (h : commandEnded o t now place run status c = .moved s' c') :
    Moves o now c ⟨t, .running place run⟩ (.ended status) s' c' := by
  simp only [commandEnded] at h
  split at h
  · simp [failWith, conclude] at h
  · split at h
    · rename_i hsuccess
      simp only [commandSucceeded, succeed] at h
      split at h
      · rename_i hbuild
        obtain ⟨rfl, rfl⟩ := Turn.moved.inj h
        exact .tell hsuccess hbuild (Or.inl rfl)
      · rename_i hgit
        have hgit : run.isBuild = false := by simpa using hgit
        split at h
        · rename_i hnone
          obtain ⟨rfl, rfl⟩ := Turn.moved.inj h
          exact .tell hsuccess hgit (Or.inr hnone)
        · rename_i build hsome
          obtain ⟨rfl, rfl⟩ := Turn.moved.inj h
          exact .build hsuccess hgit hsome
    · split at h <;> simp [failWith, conclude] at h

theorem commandEnded_eq_finished {t : SyncTask} {place : PathLocks.Place} {run : SyncRun}
    {status : Except String CommandStatus}
    (h : commandEnded o t now place run status c = .finished r c') :
    Returns o now c ⟨t, .running place run⟩ (.ended status) r c' := by
  simp only [commandEnded] at h
  split at h
  · obtain ⟨rfl, rfl⟩ := Turn.finished.inj h
    exact .fail (by simp)
  · split at h
    · simp only [commandSucceeded, succeed] at h
      split at h
      · simp at h
      · split at h <;> simp at h
    · rename_i hbad
      split at h <;> obtain ⟨rfl, rfl⟩ := Turn.finished.inj h <;>
        exact .fail fun status' heq ↦ by simp_all

/-- A synchronization goes on in no other way. -/
theorem moves_of_turn (h : s.turn o now news c = .moved s' c') : Moves o now c s news s' c' := by
  obtain ⟨t, phase⟩ := s
  cases phase with
  | looking =>
    obtain ⟨rfl, rfl⟩ := Turn.moved.inj h
    exact .look
  | looked present =>
    simp only [turn] at h
    split at h
    · simp at h
    · rename_i hother
      obtain ⟨rfl, rfl⟩ := Turn.moved.inj h
      refine .arrive ?_
      cases present <;> simp_all
  | waiting place =>
    simp only [turn] at h
    split at h
    · simp at h
    · rename_i hgranted
      obtain ⟨rfl, rfl⟩ := Turn.moved.inj h
      exact .enter hgranted
    · simp at h
  | checking place =>
    obtain ⟨rfl, rfl⟩ := Turn.moved.inj h
    exact .check
  | checked place present =>
    simp only [turn] at h
    cases present with
    | true =>
      cases hforce : t.force with
      | true =>
        simp only [hforce, Bool.not_true, Bool.and_false, Bool.false_eq_true, if_false, if_true,
          Turn.moved.injEq] at h
        obtain ⟨rfl, rfl⟩ := h
        exact .pull hforce
      | false => simp [hforce, conclude] at h
    | false =>
      simp only [Bool.false_and, Bool.false_eq_true, if_false, Turn.moved.injEq] at h
      obtain ⟨rfl, rfl⟩ := h
      exact .prepare
  | preparing place =>
    simp only [turn] at h
    split at h
    · rename_i hparent
      obtain ⟨rfl, rfl⟩ := Turn.moved.inj h
      have habove : c.makeAbove t.path = .ok c.fs := by simp [Checkouts.makeAbove, hparent]
      exact .clone habove
    · rename_i parent hparent
      split at h
      · rename_i fs hfs
        obtain ⟨rfl, rfl⟩ := Turn.moved.inj h
        exact .clone (by simp [Checkouts.makeAbove, hparent, hfs])
      · simp [failWith, conclude] at h
  | running place run =>
    simp only [turn] at h
    split at h
    · exact commandEnded_eq_moved h
    · split at h
      · simp at h
      · split at h <;> simp [failWith, conclude] at h
  | invalidating place action built =>
    simp only [turn] at h
    split at h <;> simp [conclude] at h

/-- A synchronization comes to its end in no other way. -/
theorem returns_of_turn (h : s.turn o now news c = .finished r c') : Returns o now c s news r c' := by
  obtain ⟨t, phase⟩ := s
  cases phase with
  | looking => simp [turn] at h
  | looked present =>
    simp only [turn] at h
    split at h
    · rename_i hskip
      obtain ⟨rfl, hheld⟩ : present = true ∧ c.locks.isHeld t.path = false := by simpa using hskip
      obtain ⟨rfl, rfl⟩ := Turn.finished.inj h
      exact .skip hheld
    · simp at h
  | waiting place =>
    simp only [turn] at h
    split at h
    · simp at h
    · simp at h
    · rename_i x hover
      obtain ⟨rfl, rfl⟩ := Turn.finished.inj h
      exact .share hover
  | checking place => simp [turn] at h
  | checked place present =>
    simp only [turn] at h
    cases present with
    | true =>
      cases hforce : t.force with
      | true => simp [hforce] at h
      | false =>
        simp only [hforce, Bool.not_false, Bool.and_self, if_true] at h
        obtain ⟨rfl, rfl⟩ := Turn.finished.inj h
        exact .find hforce
    | false => simp at h
  | preparing place =>
    simp only [turn] at h
    split at h
    · simp at h
    · rename_i parent hparent
      split at h
      · simp at h
      · rename_i cause hcause
        obtain ⟨rfl, rfl⟩ := Turn.finished.inj h
        have habove : c.makeAbove t.path = .error cause := by
          simp [Checkouts.makeAbove, hparent, hcause]
        exact .unprepared habove
  | running place run =>
    simp only [turn] at h
    split at h
    · exact commandEnded_eq_finished h
    · rename_i hnone
      split at h
      · simp at h
      · split at h
        · obtain ⟨rfl, rfl⟩ := Turn.finished.inj h
          exact .fail fun status heq ↦ absurd heq (hnone _)
        · simp at h
  | invalidating place action built =>
    simp only [turn] at h
    split at h
    · obtain ⟨rfl, rfl⟩ := Turn.finished.inj h
      exact .told
    · simp at h

end Synchronization

namespace Removal

variable {c c' : Checkouts} {news : SyncNews} {r r' : Removal} {result : Except SyncError Path}

/-- A removal arrives at the slot of the checkout's folder. -/
def arrive (key : RepositoryKey) (path : Path) (c : Checkouts) : Removal × Checkouts :=
  let (slot, locks) := c.locks.hold path
  let (place, locks) := locks.arrive slot
  (⟨key, path, .waiting place⟩, c.withLocks locks)

/-- How a removal goes on. -/
inductive Moves (c : Checkouts) : Removal → Removal → Checkouts → Prop
  | enter {key : RepositoryKey} {path : Path} {place : PathLocks.Place}
      (h : c.locks.admission place ≠ .notYet) :
      Moves c ⟨key, path, .waiting place⟩ ⟨key, path, .checking place⟩ c
  | check {key : RepositoryKey} {path : Path} {place : PathLocks.Place}
      (h : c.fs.present path = true) :
      Moves c ⟨key, path, .checking place⟩ ⟨key, path, .removing place⟩ c
  | remove {key : RepositoryKey} {path : Path} {place : PathLocks.Place} {fs : FileSystem}
      (h : c.fs.removeTree path = (.ok (), fs)) :
      Moves c ⟨key, path, .removing place⟩ ⟨key, path, .invalidating place.slot⟩
        ({ c with fs := fs }.withLocks (c.locks.leave place))

/-- How a removal comes to its end. -/
inductive Returns (c : Checkouts) : Removal → SyncNews → Except SyncError Path → Checkouts → Prop
  | missing {key : RepositoryKey} {path : Path} {place : PathLocks.Place} {news : SyncNews}
      (h : c.fs.present path = false) :
      Returns c ⟨key, path, .checking place⟩ news (.error (.notCheckedOut path)) (c.given place)
  | fail {key : RepositoryKey} {path : Path} {place : PathLocks.Place} {news : SyncNews}
      {cause : FileSystem.Cause} {fs : FileSystem} (h : c.fs.removeTree path = (.error cause, fs)) :
      Returns c ⟨key, path, .removing place⟩ news
        (.error (.io "failed to remove" path cause.message)) ({ c with fs := fs }.given place)
  | told {key : RepositoryKey} {path : Path} {slot : Nat} :
      Returns c ⟨key, path, .invalidating slot⟩ .invalidated (.ok path)
        (c.withLocks (c.locks.release slot))

/-- A removal goes on in no other way. -/
theorem moves_of_turn (h : r.turn news c = .moved r' c') : Moves c r r' c' := by
  obtain ⟨key, path, phase⟩ := r
  cases phase with
  | waiting place =>
    simp only [turn] at h
    split at h
    · simp at h
    · rename_i hadmitted
      obtain ⟨rfl, rfl⟩ := Turn.moved.inj h
      exact .enter hadmitted
  | checking place =>
    simp only [turn] at h
    split at h
    · rename_i hpresent
      obtain ⟨rfl, rfl⟩ := Turn.moved.inj h
      exact .check hpresent
    · simp [failWith] at h
  | removing place =>
    simp only [turn] at h
    split at h
    · simp [failWith] at h
    · rename_i fs hfs
      obtain ⟨rfl, rfl⟩ := Turn.moved.inj h
      exact .remove hfs
  | invalidating slot =>
    simp only [turn] at h
    split at h <;> simp at h

/-- A removal comes to its end in no other way. -/
theorem returns_of_turn (h : r.turn news c = .finished result c') :
    Returns c r news result c' := by
  obtain ⟨key, path, phase⟩ := r
  cases phase with
  | waiting place =>
    simp only [turn] at h
    split at h <;> simp at h
  | checking place =>
    simp only [turn] at h
    split at h
    · simp at h
    · rename_i hmissing
      obtain ⟨rfl, rfl⟩ := Turn.finished.inj h
      exact .missing (by simpa using hmissing)
  | removing place =>
    simp only [turn] at h
    split at h
    · rename_i cause fs hfs
      obtain ⟨rfl, rfl⟩ := Turn.finished.inj h
      exact .fail hfs
    · simp at h
  | invalidating slot =>
    simp only [turn] at h
    split at h
    · obtain ⟨rfl, rfl⟩ := Turn.finished.inj h
      exact .told
    · simp at h

end Removal

namespace CheckoutCall

variable {o : SyncOptions} {now : Nat} {c c' : Checkouts} {news : SyncNews} {k k' : CheckoutCall}
  {r : CheckoutReport}

/-- How a call begins. -/
inductive Begins (o : SyncOptions) (c : Checkouts) : CheckoutCall → Checkouts → Prop
  | look {t : SyncTask} (h : t.path = t.address.key.checkoutPath o.root) (hforce : t.force = false) :
      Begins o c (.sync ⟨t, .looking⟩) c
  | arrive {t : SyncTask} (h : t.path = t.address.key.checkoutPath o.root)
      (hforce : t.force = true) :
      Begins o c (.sync (Synchronization.arrive t c).1) (Synchronization.arrive t c).2
  | remove (key : RepositoryKey) :
      Begins o c (.removal (Removal.arrive key (key.checkoutPath o.root) c).1)
        (Removal.arrive key (key.checkoutPath o.root) c).2

/-- How a call goes on. -/
inductive Moves (o : SyncOptions) (now : Nat) (c : Checkouts) :
    CheckoutCall → SyncNews → CheckoutCall → Checkouts → Prop
  | sync {s s' : Synchronization} {news : SyncNews} {c' : Checkouts}
      (h : s.Moves o now c news s' c') :
      Moves o now c (.sync s) news (.sync s') c'
  | removal {r r' : Removal} {news : SyncNews} {c' : Checkouts} (h : r.Moves c r' c') :
      Moves o now c (.removal r) news (.removal r') c'

/-- How a call comes to its end. -/
inductive Returns (o : SyncOptions) (now : Nat) (c : Checkouts) :
    CheckoutCall → SyncNews → CheckoutReport → Checkouts → Prop
  | sync {s : Synchronization} {news : SyncNews} {x : SyncResult} {c' : Checkouts}
      (h : s.Returns o now c news x c') :
      Returns o now c (.sync s) news (.synchronized x) c'
  | removal {r : Removal} {news : SyncNews} {x : Except SyncError Path} {c' : Checkouts}
      (h : r.Returns c news x c') :
      Returns o now c (.removal r) news (.removed x) c'

theorem locate_eq_ok {url : String} {address : RepositoryAddress} {path : Path}
    (h : o.locate url = .ok (address, path)) :
    RepositoryAddress.parse url = .ok address ∧ path = address.key.checkoutPath o.root := by
  simp only [SyncOptions.locate] at h
  split at h
  · simp at h
  · rename_i hparse
    obtain ⟨rfl, rfl⟩ := Prod.mk.inj (Except.ok.inj h)
    exact ⟨hparse, rfl⟩

/-- A call begins in no other way. -/
theorem begins_of_begin {order : CheckoutOrder} (h : order.begin o c = (.inl k, c')) :
    Begins o c k c' := by
  cases order with
  | synchronize url force token =>
    simp only [CheckoutOrder.begin, Synchronization.begin] at h
    split at h
    · simp at h
    · rename_i address path hlocate
      obtain ⟨-, hpath⟩ := locate_eq_ok hlocate
      cases force with
      | false =>
        simp only [Bool.false_eq_true, if_false, Prod.map_apply, Sum.map_inl, id_eq,
          Prod.mk.injEq, Sum.inl.injEq] at h
        obtain ⟨rfl, rfl⟩ := h
        exact .look hpath rfl
      | true =>
        simp only [if_true, Prod.map_apply, Sum.map_inl, id_eq, Prod.mk.injEq, Sum.inl.injEq] at h
        obtain ⟨rfl, rfl⟩ := h
        exact .arrive (t := ⟨address, path, true, token⟩) hpath rfl
  | remove url =>
    simp only [CheckoutOrder.begin, Removal.begin] at h
    split at h
    · simp at h
    · rename_i address path hlocate
      obtain ⟨-, rfl⟩ := locate_eq_ok hlocate
      simp only [Prod.map_apply, Sum.map_inl, id_eq, Prod.mk.injEq, Sum.inl.injEq] at h
      obtain ⟨rfl, rfl⟩ := h
      exact .remove address.key

/-- Nothing changes when a call is refused. -/
theorem checkouts_eq_of_refused {order : CheckoutOrder} (h : order.begin o c = (.inr r, c')) :
    c' = c := by
  cases order with
  | synchronize url force token =>
    simp only [CheckoutOrder.begin, Synchronization.begin] at h
    split at h
    · exact (congrArg Prod.snd h).symm
    · split at h <;> simp at h
  | remove url =>
    simp only [CheckoutOrder.begin, Removal.begin] at h
    split at h
    · exact (congrArg Prod.snd h).symm
    · simp at h

/-- A call goes on in no other way. -/
theorem moves_of_turn (h : k.turn o now news c = .moved k' c') : Moves o now c k news k' c' := by
  cases k with
  | sync s =>
    obtain ⟨s', hturn, rfl⟩ := (Turn.map_eq_moved.mp h).resolve_right (by simp)
    exact .sync (Synchronization.moves_of_turn hturn)
  | removal r =>
    obtain ⟨r', hturn, rfl⟩ := (Turn.map_eq_moved.mp h).resolve_right (by simp)
    exact .removal (Removal.moves_of_turn hturn)

/-- A call comes to its end in no other way. -/
theorem returns_of_turn {r' : CheckoutReport} (h : k.turn o now news c = .finished r' c') :
    Returns o now c k news r' c' := by
  cases k with
  | sync s =>
    obtain ⟨result, c₁, hturn, hend⟩ := Turn.map_eq_finished.mp h
    obtain ⟨rfl, rfl⟩ := Turn.finished.inj hend
    exact .sync (Synchronization.returns_of_turn hturn)
  | removal r =>
    obtain ⟨result, c₁, hturn, hend⟩ := Turn.map_eq_finished.mp h
    obtain ⟨rfl, rfl⟩ := Turn.finished.inj hend
    exact .removal (Removal.returns_of_turn hturn)

end CheckoutCall

/-! ### Folders and files -/

/-- A synchronization has the same task all along. -/
theorem Synchronization.Moves.task_eq {o : SyncOptions} {now : Nat} {c c' : Checkouts}
    {news : SyncNews} {s s' : Synchronization} (h : s.Moves o now c news s' c') : s'.task = s.task := by
  cases h <;> rfl

namespace CheckoutCall

variable {o : SyncOptions} {now : Nat} {c c' : Checkouts} {news : SyncNews} {k k' : CheckoutCall}

/-- A synchronization looks first, but when it is forced it arrives at once. -/
theorem Begins.sync {s : Synchronization} (h : Begins o c (.sync s) c') :
    (s.task.force = false ∧ s.phase = .looking) ∨ (s.task.force = true ∧
      s = (Synchronization.arrive s.task c).1 ∧ c' = (Synchronization.arrive s.task c).2) := by
  cases h with
  | look hpath hforce => exact Or.inl ⟨hforce, rfl⟩
  | arrive hpath hforce => exact Or.inr ⟨hforce, rfl, rfl⟩

theorem Begins.path_eq (h : Begins o c k c') : k.path = k.key.checkoutPath o.root := by
  cases h with
  | look hpath => exact hpath
  | arrive hpath => exact hpath
  | remove => rfl

theorem Begins.fs_eq (h : Begins o c k c') : c'.fs = c.fs := by
  cases h <;> rfl

/-- A call works on the same repository all along. -/
theorem Moves.same (h : Moves o now c k news k' c') : k'.key = k.key ∧ k'.path = k.path := by
  cases h with
  | sync h => cases h <;> exact ⟨rfl, rfl⟩
  | removal h => cases h <;> exact ⟨rfl, rfl⟩

theorem drop_fs (k : CheckoutCall) (c : Checkouts) : (k.drop c).fs = c.fs := by
  match k with
  | .sync ⟨t, phase⟩ => cases phase <;> rfl
  | .removal ⟨key, path, phase⟩ => cases phase <;> rfl

end CheckoutCall

namespace CheckoutWorld

variable {o : SyncOptions} {w w' : CheckoutWorld} {e : CheckoutEvent} {m n : Nat}
  {k k' : CheckoutCall}

theorem active_put (hn : w.Active n k) {k₁ : Option CheckoutCall} {c : Checkouts} :
    (w.put n k₁ c).Active m k' ↔ (m = n ∧ k₁ = some k') ∨ (m ≠ n ∧ w.Active m k') := by
  rw [Active, put, getElem?_set_eq_some hn]
  simp [Active, eq_comm]

/-- A call that a step is not about is under way as before. -/
theorem Step.active_of_ne (h : Step o w e w') (hn : w.Active n k) (he : e.call? ≠ some n) :
    w'.Active n k := by
  cases h with
  | begin => exact getElem?_concat_eq_some.mpr (Or.inl hn)
  | turn _ hm => exact (active_put hm).mpr (Or.inr ⟨fun h ↦ he (congrArg some h.symm), hn⟩)
  | finish _ hm => exact (active_put hm).mpr (Or.inr ⟨fun h ↦ he (congrArg some h.symm), hn⟩)
  | drop hm => exact (active_put hm).mpr (Or.inr ⟨fun h ↦ he (congrArg some h.symm), hn⟩)
  | refuse => exact hn
  | print => exact hn
  | change => exact hn
  | pass => exact hn

/-- A call that is under way after a step was so before, or has just begun, or has just gone on. -/
theorem Step.active (h : Step o w e w') (hn : w'.Active n k') :
    w.Active n k' ∨ (e = .began n k' ∧ k'.Begins o w.checkouts w'.checkouts) ∨
      ∃ k news, e = .moved n k news k' ∧ w.Active n k ∧
        k.Moves o w.now w.checkouts news k' w'.checkouts := by
  cases h with
  | begin order hbegin =>
    rcases getElem?_concat_eq_some.mp hn with hn | ⟨rfl, hk⟩
    · exact Or.inl hn
    · obtain rfl := Option.some.inj hk
      exact Or.inr (Or.inl ⟨rfl, CheckoutCall.begins_of_begin hbegin⟩)
  | turn news hm hnews hturn =>
    rcases (active_put hm).mp hn with ⟨rfl, hk⟩ | ⟨-, hn⟩
    · obtain rfl := Option.some.inj hk
      exact Or.inr (Or.inr ⟨_, news, rfl, hm, CheckoutCall.moves_of_turn hturn⟩)
    · exact Or.inl hn
  | finish news hm hnews hturn =>
    obtain ⟨-, hk⟩ | ⟨-, hn⟩ := (active_put hm).mp hn
    · simp at hk
    · exact Or.inl hn
  | drop hm =>
    obtain ⟨-, hk⟩ | ⟨-, hn⟩ := (active_put hm).mp hn
    · simp at hk
    · exact Or.inl hn
  | refuse order hbegin => exact Or.inl hn
  | print text hm hk => exact Or.inl hn
  | change fs => exact Or.inl hn
  | pass time => exact Or.inl hn

/-- What all calls have that begin, and what no turn takes from them, all calls have. -/
theorem active_of_run {S : CheckoutWorld → CheckoutEvent → CheckoutWorld → Prop}
    {P : CheckoutCall → Prop} {fs : FileSystem} {events : List CheckoutEvent}
    (hS : ∀ u e v, S u e v → Step o u e v)
    (hbegins : ∀ u n k v, S u (.began n k) v → k.Begins o u.checkouts v.checkouts → P k)
    (hmoves : ∀ now c k news k' c', P k → k.Moves o now c news k' c' → P k')
    (h : Run S (start fs) events w) (hn : w.Active n k) : P k := by
  induction h generalizing k with
  | nil => simp [Active, start] at hn
  | snoc h hstep ih =>
    rcases (hS _ _ _ hstep).active hn with hn | ⟨rfl, hb⟩ | ⟨k₀, news, -, hk₀, hm⟩
    · exact ih hn
    · exact hbegins _ _ _ _ hstep hb
    · exact hmoves _ _ _ _ _ _ (ih hk₀) hm

/-- Every call works on the folder of its repository. -/
theorem path_of_run {fs : FileSystem} {events : List CheckoutEvent}
    (h : Run (Step o) (start fs) events w) (hn : w.Active n k) :
    k.path = k.key.checkoutPath o.root := by
  refine active_of_run (P := fun k ↦ k.path = k.key.checkoutPath o.root) (fun _ _ _ h ↦ h) ?_ ?_ h hn
  · exact fun _ _ _ _ _ hbegins ↦ hbegins.path_eq
  · rintro now c k news k' c' hpath hmoves
    rwa [hmoves.same.1, hmoves.same.2]

end CheckoutWorld

end CodeNav
