import CodeNav.Rehearsal.Commands
import CodeNav.Rehearsal.Stage
import CodeNav.Sync.Removal

/-!
# Rehearsing work on checkouts

Synchronizations and removals with commands that follow rules, and readers of their progress.

## Main definitions

* `SyncStage`: the checkouts and the workshop
* `SyncStage.stage`: how calls take turns
-/

namespace CodeNav.Rehearsal

/-- The checkouts and the workshop. -/
structure SyncStage where
  options : SyncOptions
  checkouts : Checkouts
  workshop : Workshop

/-- A call. -/
inductive SyncWork where
  /-- A synchronization, and the command that is being run for it. -/
  | synchronization (s : Synchronization) (run : Option CommandRun)
  | removal (r : Removal)
  | info (path : Path)
  | watch (w : ProgressWatch)

/-- How a call ended. -/
inductive SyncHeard where
  | synchronized (result : SyncResult)
  | removed (result : Except SyncError Path)
  | info (result : Except SyncError CheckoutInfo)
  | progress (snapshot : ProgressSnapshot)

namespace SyncStage

/-- The stage with another state of its checkouts. -/
def withCheckouts (s : SyncStage) (c : Checkouts) : SyncStage := { s with checkouts := c }

/-- The stage after a change was told. -/
def tell (key : RepositoryKey) (s : SyncStage) : SyncStage :=
  { s with workshop := { s.workshop with invalidated := s.workshop.invalidated ++ [key] } }

/-- The turn of a synchronization with some news. -/
def syncTurn (now : Nat) (news : SyncNews) (run : Option CommandRun) (c : Synchronization)
    (s : SyncStage) : Turn SyncStage SyncWork SyncHeard :=
  ((c.turn s.options now news s.checkouts).lift s.withCheckouts).map
    (fun c => .synchronization c run) fun r s => .finished (.synchronized r) s

/-- The turn of a call. -/
def workTurn (now : Nat) (w : SyncWork) (s : SyncStage) : Turn SyncStage SyncWork SyncHeard :=
  match w with
  | .synchronization c run =>
    match c.wants with
    | .nothing => syncTurn now .nothing none c s
    | .invalidation key => syncTurn now .invalidated none c (s.tell key)
    | .command command key =>
      match s.workshop.turn now run command key s.checkouts with
      | .began run workshop checkouts =>
        .moved (.synchronization c (some run))
          { s with workshop := workshop, checkouts := checkouts }
      | .ended status workshop checkouts =>
        syncTurn now (.ended status) none c
          { s with workshop := workshop, checkouts := checkouts }
      | .waits time =>
        match syncTurn now .nothing run c s with
        | .parked t => .parked (earlier t (some time))
        | turn => turn
  | .removal r =>
    let (news, s) := match r.wants with
      | .invalidation key => (SyncNews.invalidated, s.tell key)
      | _ => (.nothing, s)
    ((r.turn news s.checkouts).lift s.withCheckouts).map .removal
      fun r s => .finished (.removed r) s
  | .info path => .finished (.info (s.checkouts.info path)) s
  | .watch w =>
    match w.turn now s.checkouts.board with
    | .parked t => .parked t
    | .moved w _ => .moved (.watch w) s
    | .finished r _ => .finished (.progress r) s

/-- How calls take turns. -/
def stage : Stage SyncStage SyncWork SyncHeard Empty where
  own _ := []
  ownTurn _ s _ := nomatch s
  width _ := 1
  turn now _ w s := workTurn now w s
  drop w s :=
    match w with
    | .synchronization c _ => s.withCheckouts (c.drop s.checkouts)
    | .removal r => s.withCheckouts (r.drop s.checkouts)
    | _ => s

/-- A synchronization begins. -/
def synchronize (url : String) (force : Bool) (token : Option String) (s : SyncStage) :
    (SyncWork ⊕ SyncHeard) × SyncStage :=
  match Synchronization.begin s.options url force token s.checkouts with
  | (.inl c, checkouts) => (.inl (.synchronization c none), s.withCheckouts checkouts)
  | (.inr r, checkouts) => (.inr (.synchronized r), s.withCheckouts checkouts)

/-- A removal begins. -/
def remove (url : String) (s : SyncStage) : (SyncWork ⊕ SyncHeard) × SyncStage :=
  match Removal.begin s.options url s.checkouts with
  | (.inl r, checkouts) => (.inl (.removal r), s.withCheckouts checkouts)
  | (.inr r, checkouts) => (.inr (.removed r), s.withCheckouts checkouts)

/-- Somebody asks about a checkout. -/
def info (url : String) (s : SyncStage) : (SyncWork ⊕ SyncHeard) × SyncStage :=
  match s.options.locate url with
  | .error e => (.inr (.info (.error e)), s)
  | .ok (_, path) => (.inl (.info path), s)

/-- Somebody waits for news in a log. -/
def watch (now ms : Nat) (key : RepositoryKey) (s : SyncStage) :
    (SyncWork ⊕ SyncHeard) × SyncStage :=
  match ProgressWatch.start s.checkouts.board key now ms with
  | .inl w => (.inl (.watch w), s)
  | .inr r => (.inr (.progress r), s)

end SyncStage

end CodeNav.Rehearsal
