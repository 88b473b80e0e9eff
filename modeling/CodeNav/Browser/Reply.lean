import CodeNav.Json.Basic

/-!
# Replies to the browser

A reply repeats the name of the request, says how it went, and carries the answer or a message. It
is addressed to the tab that asked, and repeats the arguments of the request.

## Main definitions

* `Reply`: a reply, made by `Reply.success`, `Reply.error`, `Reply.failure` and `Reply.skip`
* `Reply.addressed`: a reply for the tab that asked
* `Reply.toJson`: its written form
-/

namespace CodeNav

/-- How a request went. -/
inductive Outcome where
  | success
  /-- The request was refused, or a call on a session failed. -/
  | error
  /-- Nothing had to be done. -/
  | skip
  /-- A repository could not be brought up to date. -/
  | failure
  deriving DecidableEq, Inhabited

/-- The word for an outcome. -/
def Outcome.text : Outcome → String
  | success => "success"
  | error => "error"
  | skip => "skip"
  | failure => "failure"

/-- The place on a page that a request was about. -/
structure PageToken where
  line : Nat
  character : Nat
  text : String
  deriving DecidableEq, Inhabited

/-- A reply. -/
structure Reply where
  request : String
  outcome : Outcome
  value : Option Json
  message : Option String
  token : Option PageToken
  tab : Option Json
  userInfo : Option Json
  deriving Inhabited

namespace Reply

/-- A reply with nothing but an outcome. -/
def plain (request : String) (outcome : Outcome) : Reply :=
  ⟨request, outcome, none, none, none, none, none⟩

/-- The request was answered. -/
def success (request : String) (value : Option Json) : Reply :=
  { plain request .success with value := value }

/-- The request was refused, or a call failed. -/
def error (request message : String) : Reply :=
  { plain request .error with message := some message }

/-- A repository could not be brought up to date. -/
def failure (request message : String) : Reply :=
  { plain request .failure with message := some message }

/-- Nothing had to be done. -/
def skip (request : String) : Reply :=
  plain request .skip

/-- The reply for a place on a page. -/
def about (r : Reply) (token : PageToken) : Reply :=
  { r with token := some token }

/-- The reply for the tab that asked. -/
def addressed (r : Reply) (tab userInfo : Option Json) : Reply :=
  { r with tab := tab, userInfo := userInfo }

/-- The reply as an object, from which absent parts are left out. -/
def toJson (r : Reply) : Json :=
  Json.ofPresent
    [("request", some (.string r.request)), ("result", some (.string r.outcome.text)),
      ("value", r.value), ("message", r.message.map Json.string),
      ("line", r.token.map fun t => Json.nat t.line),
      ("character", r.token.map fun t => Json.nat t.character),
      ("text", r.token.map fun t => Json.string t.text),
      ("tabId", r.tab), ("userInfo", r.userInfo)]

end Reply

end CodeNav
