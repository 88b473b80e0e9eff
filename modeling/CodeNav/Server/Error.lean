import CodeNav.Text.Quoted

/-!
# Why a call on a session fails

## Main definitions

* `SessionState`: how far a session has come
* `SessionError`: the causes, with their wording in `SessionError.message`
-/

namespace CodeNav

/-- How far a session has come. It never goes back. -/
inductive SessionState where
  | created
  | initializing
  | running
  | closed
  deriving DecidableEq, Inhabited

/-- The word for a state. -/
def SessionState.text : SessionState → String
  | created => "created"
  | initializing => "initializing"
  | running => "running"
  | closed => "closed"

/-- The place of a state in the life of a session. -/
def SessionState.rank : SessionState → Nat
  | created => 0
  | initializing => 1
  | running => 2
  | closed => 3

/-- Why a call on a session fails. -/
inductive SessionError where
  | notRunning (state : SessionState)
  | closed
  /-- The server refused the request. -/
  | protocol (method : String) (code : Int) (text : String)
  | timeout (method : String) (limit : Nat)
  | launch (command reason : String)
  | io (reason : String)
  | invalidResponse (method reason : String)
  | invalidPath (path : String)
  deriving DecidableEq, Inhabited

/-- The wording of an error. -/
def SessionError.message : SessionError → String
  | notRunning state =>
    "language server session is not running (state: " ++ state.text ++ ")"
  | closed => "language server session is closed"
  | protocol method code text =>
    method ++ " failed: " ++ text ++ " (code " ++ toString code ++ ")"
  | timeout method limit => method ++ " timed out after " ++ toString limit ++ " ms"
  | launch command reason =>
    "failed to launch language server `" ++ command ++ "`: " ++ reason
  | io reason => "language server I/O failed: " ++ reason
  | invalidResponse method reason => "invalid response to " ++ method ++ ": " ++ reason
  | invalidPath path => "invalid document path: " ++ Text.quoted path

end CodeNav
