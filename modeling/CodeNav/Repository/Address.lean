import CodeNav.Repository.Key
import CodeNav.Url.Parser

/-!
# Addresses of repositories

The address that a repository is cloned from, together with its key. It is made either from an
address that somebody wrote, all of whose path names the repository, or from the address of a page
of a code host, whose first two path segments do. In both cases it is rebuilt from the key: scheme,
host and port, and the slug with the ending of clone addresses.

## Main definitions

* `RepositoryAddress`: an address and its key
* `RepositoryAddress.parse`, `RepositoryAddress.ofPage`
* `RepositoryAddress.withToken`: the address with a token for its host
* `RepositoryAddress.Error`: why there is none
-/

namespace CodeNav

/-- What a repository is cloned from. -/
structure RepositoryAddress where
  url : Url
  key : RepositoryKey
  deriving DecidableEq, Inhabited

namespace RepositoryAddress

/-- Why a text does not give the address of a repository. -/
inductive Error where
  | invalidUrl (url reason : String)
  | missingHost (url : String)
  | missingSlug (url : String)
  | hostMismatch (expected actual : String)
  | reservedOwner (name : String)
  deriving DecidableEq, Inhabited

/-- The wording of an error. -/
def Error.message : Error → String
  | invalidUrl url reason => s!"invalid repository URL {Text.quoted url}: {reason}"
  | missingHost url => s!"repository URL has no host: {url}"
  | missingSlug url => s!"URL does not name an owner and repository: {url}"
  | hostMismatch expected actual =>
    s!"page host {Text.quoted actual} does not match resource {Text.quoted expected}"
  | reservedOwner name => s!"{Text.quoted name} is not a repository page"

/-- First path segments of a code host that name pages of the host itself. -/
def reservedOwners : List String :=
  ["collections", "explore", "login", "marketplace", "notifications", "orgs", "search", "settings",
    "sponsors", "topics", "trending"]

/-- The address that a text stands for, which has to have a host. -/
def urlOf (input : String) : Except Error Url :=
  match Url.parse (Text.trimmed input) with
  | .error e => .error (.invalidUrl input e.message)
  | .ok url => if url.hostText?.isNone then .error (.missingHost input) else .ok url

/-- The segments of a path that mean something. -/
def segmentsOf (url : Url) : List (List Char) :=
  url.segments.filter fun s => s ≠ [] && !RepositoryKey.isDots s

/-- The clone address of a key on the host of an address. -/
def cloneText (url : Url) (key : RepositoryKey) : String :=
  let port := match url.port with
    | some port => ":" ++ String.ofList (Nat.toDigits 10 port)
    | none => ""
  String.ofList url.scheme ++ "://" ++ key.resource ++ port ++ "/" ++ key.slug ++ ".git"

/-- The repository that segments name on the host of an address. -/
def ofSegments (url : Url) (segments : List (List Char)) : Except Error RepositoryAddress :=
  match url.hostText? with
  | none => .error (.missingHost url.text)
  | some host =>
    let key := RepositoryKey.normalize (String.ofList host)
      (String.ofList (Text.joinWith '/' segments))
    if key.isComplete then
      let raw := cloneText url key
      match Url.parse raw with
      | .error e => .error (.invalidUrl raw e.message)
      | .ok clone => .ok ⟨clone, key⟩
    else .error (.missingSlug url.text)

/-- The repository of a clone address. -/
def parse (input : String) : Except Error RepositoryAddress := do
  let url ← urlOf input
  let segments := segmentsOf url
  if segments.length < 2 then .error (.missingSlug input) else ofSegments url segments

/-- The repository of a page on a code host. -/
def ofPage (resource href : String) : Except Error RepositoryAddress := do
  let url ← urlOf href
  let expected := RepositoryKey.normalizeResource resource.toList
  let actual := RepositoryKey.lowerChars (url.hostText?.getD [])
  if expected ≠ actual then
    .error (.hostMismatch (String.ofList expected) (String.ofList actual))
  else
    match segmentsOf url with
    | owner :: name :: _ =>
      if reservedOwners.contains (String.ofList (RepositoryKey.lowerChars owner)) then
        .error (.reservedOwner (String.ofList owner))
      else ofSegments url [owner, name]
    | _ => .error (.missingSlug href)

/-- The address written out. -/
def text (r : RepositoryAddress) : String :=
  r.url.text

/-- The password that goes with a token. -/
def tokenPassword : String := "x-oauth-basic"

/-- The address with a token as user name. -/
def withToken (r : RepositoryAddress) (token : String) : String :=
  (r.url.withUser token.toList tokenPassword.toList).text

end RepositoryAddress

end CodeNav
