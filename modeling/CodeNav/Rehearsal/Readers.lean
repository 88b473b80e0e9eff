import CodeNav.Progress
import CodeNav.Rehearsal.Stage

/-!
# Rehearsing progress logs

A board of logs and one log that belongs to no board, with readers that wait for news.

## Main definitions

* `ProgressStage`: the board and the lone log
* `ProgressStage.stage`: how readers take turns
-/

namespace CodeNav.Rehearsal

/-- A board, and a lone log, which is kept as the only one of a board of its own. -/
structure ProgressStage where
  board : ProgressBoard
  lone : ProgressBoard

namespace ProgressStage

/-- The stage before the first step. -/
def opening : ProgressStage := ⟨.empty, .empty⟩

/-- Which log is meant: that of a repository, or the lone one. -/
abbrev Which := Option RepositoryKey

/-- The board and the key of a log. -/
def locate (s : ProgressStage) : Which → ProgressBoard × RepositoryKey
  | some key => (s.board, key)
  | none => (s.lone, ⟨"", ""⟩)

/-- What is seen of a log that was handed out. -/
def seen (board : ProgressBoard) (log : LogHandle) : ProgressSnapshot :=
  ((board.read? log).map (·.snapshot)).getD .empty

/-- What is seen of a log. -/
def snapshot (s : ProgressStage) (w : Which) : ProgressSnapshot :=
  let (board, key) := s.locate w
  let (log, board) := board.handOut key
  seen board log

/-- A board with the log of a repository handed out and written to. -/
def written (board : ProgressBoard) (key : RepositoryKey) (f : ProgressLog → ProgressLog) :
    ProgressBoard :=
  let (log, board) := board.handOut key
  board.write log f

/-- The stage with a log changed. -/
def change (s : ProgressStage) (f : ProgressLog → ProgressLog) : Which → ProgressStage
  | some key => { s with board := written s.board key f }
  | none => { s with lone := written s.lone ⟨"", ""⟩ f }

/-- A synchronization begins, and its log is looked at. -/
def begin (key : RepositoryKey) (s : ProgressStage) : ProgressSnapshot × ProgressStage :=
  let (log, board) := s.board.handOutBegun key
  (seen board log, { s with board := board })

/-- What is seen of the log of the synchronization that began last. -/
def latest? (s : ProgressStage) (resource : Option String) : Option ProgressSnapshot :=
  (s.board.latestLog? resource).map (seen s.board)

/-- How readers take turns. -/
def stage : Stage ProgressStage (Which × ProgressWatch) ProgressSnapshot Empty where
  own _ := []
  ownTurn _ s _ := nomatch s
  width _ := 1
  turn now _ w s :=
    match w.2.turn now (s.locate w.1).1 with
    | .parked t => .parked t
    | .moved w' _ => .moved (w.1, w') s
    | .finished r _ => .finished r s
  drop _ s := s

/-- A reader comes. -/
def watch (now ms : Nat) (w : Which) (s : ProgressStage) :
    ((Which × ProgressWatch) ⊕ ProgressSnapshot) × ProgressStage :=
  let (board, key) := s.locate w
  match ProgressWatch.start board key now ms with
  | .inl phase => (.inl (w, phase), s)
  | .inr snapshot => (.inr snapshot, s)

end ProgressStage

end CodeNav.Rehearsal
