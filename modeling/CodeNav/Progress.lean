import CodeNav.Repository.Key
import CodeNav.Turn

/-!
# Build progress

Each repository has a log of its latest synchronization, which one writer fills and any number of
readers may look at. The board keeps the logs and remembers which synchronization began last.

## Main definitions

* `ProgressLog`: a log, with `append`, `finish` and `reset`
* `ProgressBoard`: the logs of all repositories, with `begin`, `log` and `latest?`
* `LogHandle`: a log that a board has handed out, with `handOut`, `handOutBegun`, `latestLog?`, `read?`
  and `write`
* `ProgressWatch`: a reader that waits for news
-/

namespace CodeNav

/-- What a reader sees of a log. -/
structure ProgressSnapshot where
  text : String
  complete : Bool
  failed : Bool
  deriving DecidableEq, Inhabited

/-- A log with nothing in it. -/
def ProgressSnapshot.empty : ProgressSnapshot := ⟨"", false, false⟩

/-- What is seen of a log, as an object. -/
def ProgressSnapshot.toJson (s : ProgressSnapshot) : Json :=
  .ofFields [("text", .string s.text), ("complete", .bool s.complete), ("failed", .bool s.failed)]

/-- A log, and how often it has changed. -/
structure ProgressLog where
  snapshot : ProgressSnapshot
  version : Nat
  deriving DecidableEq, Inhabited

namespace ProgressLog

/-- A log that was never written. -/
def fresh : ProgressLog := ⟨.empty, 0⟩

/-- The log after a change. -/
def changed (l : ProgressLog) (s : ProgressSnapshot) : ProgressLog :=
  ⟨s, l.version + 1⟩

/-- The log before a new synchronization. -/
def reset (l : ProgressLog) : ProgressLog :=
  l.changed .empty

/-- The log with more text. Nothing changes when there is no text. -/
def append (l : ProgressLog) (text : String) : ProgressLog :=
  if text = "" then l else l.changed { l.snapshot with text := l.snapshot.text ++ text }

/-- The log after its synchronization ended. -/
def finish (l : ProgressLog) (failed : Bool) : ProgressLog :=
  l.changed { l.snapshot with complete := true, failed := failed }

end ProgressLog

/-- A log that a board has handed out: its place among the logs of the board. A board takes no log
away, so the place stays the same, whatever else is done with the board. -/
structure LogHandle where
  place : Nat
  deriving DecidableEq, Inhabited

/-- The logs of all repositories, and which synchronization began last, on each code host and
altogether. -/
structure ProgressBoard where
  logs : List (RepositoryKey × ProgressLog)
  latestKey : Option RepositoryKey
  latestOn : List (String × RepositoryKey)
  deriving Inhabited

namespace ProgressBoard

/-- The board before the first synchronization. -/
def empty : ProgressBoard := ⟨[], none, []⟩

/-- The log of a repository, empty when it was never synchronized. -/
def log (b : ProgressBoard) (key : RepositoryKey) : ProgressLog :=
  (b.logs.lookup key).getD .fresh

/-- The list with the log of a repository changed or added. -/
def putLog (key : RepositoryKey) (l : ProgressLog) :
    List (RepositoryKey × ProgressLog) → List (RepositoryKey × ProgressLog)
  | [] => [(key, l)]
  | (k, old) :: rest => if k = key then (k, l) :: rest else (k, old) :: putLog key l rest

/-- The board with the log of a repository changed. -/
def change (b : ProgressBoard) (key : RepositoryKey) (f : ProgressLog → ProgressLog) :
    ProgressBoard :=
  { b with logs := putLog key (f (b.log key)) b.logs }

/-- The board when a synchronization begins: the log is emptied, and the repository comes first. -/
def begin (b : ProgressBoard) (key : RepositoryKey) : ProgressBoard :=
  { b.change key ProgressLog.reset with
    latestKey := some key
    latestOn := (key.resource, key) :: b.latestOn }

/-- The repository whose synchronization began last, on a code host when one is named. -/
def latest? (b : ProgressBoard) (resource : Option String) : Option RepositoryKey :=
  match (resource.map fun r => (RepositoryKey.normalize r "").resource).filter (· ≠ "") with
  | some r => b.latestOn.lookup r
  | none => b.latestKey

/-! ### Logs that are handed out -/

/-- The log of a repository, if the board has one. -/
def handle? (b : ProgressBoard) (key : RepositoryKey) : Option LogHandle :=
  (b.logs.findIdx? (·.1 = key)).map .mk

/-- The log of a repository is handed out. An empty one is made when the board has none. -/
def handOut (b : ProgressBoard) (key : RepositoryKey) : LogHandle × ProgressBoard :=
  match b.handle? key with
  | some log => (log, b)
  | none => (⟨b.logs.length⟩, { b with logs := b.logs ++ [(key, .fresh)] })

/-- What stands in a log that was handed out. -/
def read? (b : ProgressBoard) (log : LogHandle) : Option ProgressLog :=
  b.logs[log.place]?.map Prod.snd

/-- The board when somebody has written to a log that was handed out. -/
def write (b : ProgressBoard) (log : LogHandle) (f : ProgressLog → ProgressLog) : ProgressBoard :=
  { b with logs := b.logs.modify log.place (Prod.map id f) }

/-- The log of a repository is handed out to a synchronization that begins: the repository comes
first, and then the log is emptied. -/
def handOutBegun (b : ProgressBoard) (key : RepositoryKey) : LogHandle × ProgressBoard :=
  let (log, b) := b.handOut key
  let first := { b with latestKey := some key, latestOn := (key.resource, key) :: b.latestOn }
  (log, first.write log .reset)

/-- The log of the synchronization that began last, on a code host when one is named. -/
def latestLog? (b : ProgressBoard) (resource : Option String) : Option LogHandle :=
  (b.latest? resource).bind b.handle?

end ProgressBoard

/-- A reader that waits for the next change of a log: how often the log had changed when the reader
came, and how long it waits. -/
structure ProgressWatch where
  key : RepositoryKey
  seen : Nat
  deadline : Nat
  deriving DecidableEq, Inhabited

/-- A reader comes at time `now` and waits at most `limit` milliseconds. A log that is complete is
shown at once. -/
def ProgressWatch.start (b : ProgressBoard) (key : RepositoryKey) (now limit : Nat) :
    ProgressWatch ⊕ ProgressSnapshot :=
  let l := b.log key
  if l.snapshot.complete then .inr l.snapshot else .inl ⟨key, l.version, now + limit⟩

/-- The reader goes on: it shows the log when it has changed or the time is over. -/
def ProgressWatch.turn (w : ProgressWatch) (now : Nat) (b : ProgressBoard) :
    Turn ProgressBoard ProgressWatch ProgressSnapshot :=
  let l := b.log w.key
  if l.version ≠ w.seen ∨ w.deadline ≤ now then .finished l.snapshot b
  else .parked (some w.deadline)

end CodeNav
