import CodeNav.Command
import CodeNav.FileSystem.Basic
import CodeNav.Lock.Paths
import CodeNav.Progress
import CodeNav.Repository.Address

/-!
# Checkouts

A checkout is the folder that holds a repository. It is made by cloning, brought up to date by
pulling, and may be built after either.

## Main definitions

* `SyncOptions`: which commands are used, and where checkouts are
* `SyncOutcome`, `SyncError`: how a synchronization ends
* `Checkouts`: the folders, the locks on them and the progress of work on them
* `SyncOptions.cloneCommand`, `SyncOptions.pullCommand`, `SyncOptions.buildCommandIn`
* `Checkouts.info`: what is known of a checkout
-/

namespace CodeNav

/-- Which commands are used, and where. -/
structure SyncOptions where
  /-- The folder of all checkouts. -/
  root : Path
  gitCommand : String
  /-- Program and arguments; nothing is built when this is empty. -/
  buildCommand : List String
  /-- How long a command may take, when it is limited. -/
  commandTimeout : Option Nat
  deriving Inhabited

/-- What a synchronization did. -/
inductive SyncAction where
  /-- The checkout was there, and no work was asked for. -/
  | skipped
  | cloned
  | updated
  deriving DecidableEq, Inhabited

/-- The word for an action. -/
def SyncAction.text : SyncAction → String
  | skipped => "skipped"
  | cloned => "cloned"
  | updated => "updated"

/-- How a synchronization ended well. -/
structure SyncOutcome where
  key : RepositoryKey
  path : Path
  action : SyncAction
  built : Bool
  deriving DecidableEq, Inhabited

/-- The outcome as an object. -/
def SyncOutcome.toJson (o : SyncOutcome) : Json :=
  .ofFields
    [("key", o.key.toJson), ("local_path", .string o.path.text),
      ("action", .string o.action.text), ("built", .bool o.built)]

/-- Why work on a checkout fails. -/
inductive SyncError where
  | invalidUrl (reason : String)
  | commandFailed (command status : String)
  | buildFailed (command status : String)
  | io (action : String) (path : Path) (reason : String)
  | notCheckedOut (path : Path)
  deriving DecidableEq, Inhabited

/-- The wording of an error. -/
def SyncError.message : SyncError → String
  | invalidUrl reason => "invalid repository URL: " ++ reason
  | commandFailed command status => "`" ++ command ++ "` failed with " ++ status
  | buildFailed command status => "build `" ++ command ++ "` failed with " ++ status
  | io action path reason => action ++ " " ++ path.quoted ++ ": " ++ reason
  | notCheckedOut path => "repository is not checked out at " ++ path.quoted

/-- How a synchronization ends. -/
abbrev SyncResult := Except SyncError SyncOutcome

/-- The folders of repositories, the locks on them and the progress of work on them. -/
structure Checkouts where
  fs : FileSystem
  locks : PathLocks SyncResult
  board : ProgressBoard

namespace SyncOptions

/-- The address of a repository and the folder of its checkout. -/
def locate (o : SyncOptions) (url : String) : Except SyncError (RepositoryAddress × Path) :=
  match RepositoryAddress.parse url with
  | .error e => .error (.invalidUrl e.message)
  | .ok address => .ok (address, address.key.checkoutPath o.root)

/-- The command that brings a checkout up to date. -/
def pullCommand (o : SyncOptions) (path : Path) : Command :=
  ⟨o.gitCommand, ["pull", "--rebase", "origin", "HEAD"], some path, []⟩

/-- A token that says something. -/
def usableToken (token : Option String) : Option String :=
  (token.map Text.trimmed).filter (· ≠ "")

/-- The command that makes a checkout. A token is a secret. -/
def cloneCommand (o : SyncOptions) (address : RepositoryAddress) (path : Path)
    (token : Option String) : Command :=
  let token := usableToken token
  let remote := match token with
    | some token => address.withToken token
    | none => address.text
  let command : Command :=
    ⟨o.gitCommand, ["clone", "--depth", "1", "--recursive", remote, path.text], path.parent?, []⟩
  match token with
  | some token => command.withSecret token
  | none => command

/-- The command that builds a checkout, if there is one. -/
def buildCommandIn (o : SyncOptions) (path : Path) : Option Command :=
  match o.buildCommand with
  | [] => none
  | program :: args => some ⟨program, args, some path, []⟩

end SyncOptions

/-- What is known of a checkout: where it is, and when it last changed. -/
structure CheckoutInfo where
  path : Path
  /-- In seconds since the beginning of 1970. -/
  lastUpdate : Int
  deriving DecidableEq, Inhabited

namespace Checkouts

/-- The checkouts with another state of their locks. -/
def withLocks (c : Checkouts) (l : PathLocks SyncResult) : Checkouts := { c with locks := l }

/-- The checkouts with the log of a repository changed. -/
def onLog (c : Checkouts) (key : RepositoryKey) (f : ProgressLog → ProgressLog) : Checkouts :=
  { c with board := c.board.change key f }

/-- The log of work that failed: it ends with the error, and is complete. -/
def logFailure (c : Checkouts) (key : RepositoryKey) (e : SyncError) : Checkouts :=
  c.onLog key fun l => (l.append (e.message ++ "\n")).finish true

/-- What is known of the checkout in a folder. -/
def info (c : Checkouts) (path : Path) : Except SyncError CheckoutInfo :=
  match c.fs.dirTime? path with
  | some time => .ok ⟨path, time⟩
  | none => .error (.notCheckedOut path)

end Checkouts

end CodeNav
