import CodeNav.Position
import CodeNav.Repository.Key
import CodeNav.Settings

/-!
# Requests of the browser

A message from the browser names a request and carries its arguments. A message is first taken
apart, and then read as one of sixteen requests: the arguments have to be of the right shape, name a
repository, a file or an address where one is needed, and may have more members than are wanted.

## Main definitions

* `PageMessage`, `PageMessage.ofJson`: a message
* `Request`: what may be asked for
* `Request.parse`: the request of a name and arguments
* `Request.Error`: why there is none
-/

namespace CodeNav

open Json (Shape Mismatch needed possible)

/-- A message from the browser, before its arguments are looked at. -/
structure PageMessage where
  name : String
  /-- The arguments, which a reply repeats. -/
  userInfo : Json
  /-- The tab that asked. -/
  tab : Option Json
  deriving Inhabited

namespace PageMessage

/-- The written form of a message. -/
def shape : Shape :=
  .record "InboundMessage"
    [needed "messageName" .text, (⟨"userInfo", none, .means .null⟩, .anything),
      (⟨"tabId", none, .means .null⟩, .anything)]

/-- The message of a value in normal form. -/
def ofNormal (j : Json) : PageMessage where
  name := j.textAt "messageName"
  userInfo := j.memberAt "userInfo"
  tab := if (j.memberAt "tabId").isNull then none else some (j.memberAt "tabId")

/-- The message that a value describes. -/
def ofJson (j : Json) : Except Mismatch PageMessage :=
  (shape.accept j).map ofNormal

/-- The arguments as a reply repeats them. -/
def repeatedInfo (m : PageMessage) : Option Json :=
  if m.userInfo.isNull then none else some m.userInfo

end PageMessage

/-- A page of a code host. -/
structure PageArgs where
  resource : String
  href : String
  deriving DecidableEq, Inhabited

/-- A repository as a request names it. -/
structure RepositoryArgs where
  resource : String
  slug : String
  deriving DecidableEq, Inhabited

/-- The key of the repository. -/
def RepositoryArgs.key (a : RepositoryArgs) : RepositoryKey :=
  .normalize a.resource a.slug

/-- A file of a repository. -/
structure DocumentArgs where
  repository : RepositoryArgs
  filepath : String
  deriving DecidableEq, Inhabited

/-- A token of a file, as a page shows it. -/
structure TokenArgs where
  document : DocumentArgs
  line : Nat
  character : Nat
  /-- The token with the blanks and dots before it. -/
  text : String
  deriving DecidableEq, Inhabited

/-- The position of the token in the file. -/
def TokenArgs.position (a : TokenArgs) : Position :=
  .ofPage a.line a.character a.text

/-- Of which repository or code host build progress is wanted. -/
structure ProgressArgs where
  resource : Option String
  slug : Option String
  deriving DecidableEq, Inhabited

/-- The repository, when one is named. -/
def ProgressArgs.key? (a : ProgressArgs) : Option RepositoryKey :=
  match a.resource, a.slug with
  | some resource, some slug =>
    let key := RepositoryKey.normalize resource slug
    if key.isComplete then some key else none
  | _, _ => none

/-- What the browser may ask for. -/
inductive Request where
  | openPage (page : PageArgs)
  | didOpen (document : DocumentArgs) (text : String)
  | documentSymbol (document : DocumentArgs)
  | hover (token : TokenArgs)
  | definition (token : TokenArgs)
  | references (token : TokenArgs)
  | documentHighlight (token : TokenArgs)
  | shutdown (repository : RepositoryArgs)
  | exit (repository : RepositoryArgs)
  | settings
  | updateSettings (update : Settings.Update)
  | repository (url : String)
  | checkoutRepository (url : String)
  | deleteRepository (url : String)
  | buildProgress (about : ProgressArgs)
  | reset
  deriving DecidableEq, Inhabited

namespace Request

/-- Why a message is no request. -/
inductive Error where
  | unknown (name : String)
  | invalid (name reason : String)
  deriving DecidableEq, Inhabited

/-- The wording of an error. -/
def Error.message : Error → String
  | unknown name => "unknown request: " ++ name
  | invalid name reason => "invalid " ++ name ++ " request: " ++ reason

/-- The written forms of arguments. -/
def pageShape : Shape :=
  .record "PageArgs" [needed "resource" .text, needed "href" .text]

/-- A repository. -/
def repositoryShape : Shape :=
  .record "SessionArgs" [needed "resource" .text, needed "slug" .text]

/-- A file. -/
def documentShape : Shape :=
  .merged "DocumentArgs" [needed "filepath" .text] repositoryShape

/-- A file with its text. -/
def openShape : Shape :=
  .merged "OpenArgs" [needed "text" .text] documentShape

/-- A token. -/
def tokenShape : Shape :=
  .merged "PositionArgs"
    [needed "line" (.natural 32), needed "character" (.natural 32), needed "text" .text]
    documentShape

/-- An address. -/
def addressShape : Shape :=
  .record "RepositoryArgs" [needed "url" .text]

/-- What progress is about. -/
def progressShape : Shape :=
  .record "ProgressArgs"
    [(⟨"resource", none, .means .null⟩, .optional .text),
      (⟨"slug", none, .means .null⟩, .optional .text)]

/-- The repository of arguments in normal form. -/
def repositoryOf (j : Json) : RepositoryArgs :=
  ⟨j.textAt "resource", j.textAt "slug"⟩

/-- The file of arguments in normal form. -/
def documentOf (j : Json) : DocumentArgs :=
  ⟨repositoryOf j, j.textAt "filepath"⟩

/-- The token of arguments in normal form. -/
def tokenOf (j : Json) : TokenArgs :=
  ⟨documentOf j, j.natAt "line", j.natAt "character", j.textAt "text"⟩

/-- Arguments of a shape, or why the request is invalid. -/
def arguments (name : String) (shape : Shape) (info : Json) : Except Error Json :=
  match shape.accept info with
  | .ok j => .ok j
  | .error m => .error (.invalid name m.message)

/-- The request of a name and arguments of the right shape. -/
def decode (name : String) (info : Json) : Except Error Request :=
  match name with
  | "initialize" => (arguments name pageShape info).map fun j =>
    .openPage ⟨j.textAt "resource", j.textAt "href"⟩
  | "didOpen" => (arguments name openShape info).map fun j =>
    .didOpen (documentOf j) (j.textAt "text")
  | "documentSymbol" => (arguments name documentShape info).map fun j =>
    .documentSymbol (documentOf j)
  | "hover" => (arguments name tokenShape info).map fun j => .hover (tokenOf j)
  | "definition" => (arguments name tokenShape info).map fun j => .definition (tokenOf j)
  | "references" => (arguments name tokenShape info).map fun j => .references (tokenOf j)
  | "documentHighlight" => (arguments name tokenShape info).map fun j =>
    .documentHighlight (tokenOf j)
  | "shutdown" => (arguments name repositoryShape info).map fun j => .shutdown (repositoryOf j)
  | "exit" => (arguments name repositoryShape info).map fun j => .exit (repositoryOf j)
  | "settings" => .ok .settings
  | "updateSettings" => (arguments name Settings.Update.shape info).map fun j =>
    .updateSettings (Settings.Update.ofNormal j)
  | "repository" => (arguments name addressShape info).map fun j => .repository (j.textAt "url")
  | "checkoutRepository" => (arguments name addressShape info).map fun j =>
    .checkoutRepository (j.textAt "url")
  | "deleteRepository" => (arguments name addressShape info).map fun j =>
    .deleteRepository (j.textAt "url")
  | "buildProgress" =>
    if info.isNull then .ok (.buildProgress ⟨none, none⟩)
    else (arguments name progressShape info).map fun j =>
      .buildProgress ⟨j.textAt? "resource", j.textAt? "slug"⟩
  | "reset" => .ok .reset
  | other => .error (.unknown other)

/-- The file that a request is about. -/
def document? : Request → Option DocumentArgs
  | didOpen d _ => some d
  | documentSymbol d => some d
  | hover t => some t.document
  | definition t => some t.document
  | references t => some t.document
  | documentHighlight t => some t.document
  | _ => none

/-- The repository that a request names. -/
def repository? : Request → Option RepositoryArgs
  | shutdown r => some r
  | exit r => some r
  | r => r.document?.map DocumentArgs.repository

/-- The address that a request names. -/
def address? : Request → Option String
  | openPage page => some page.href
  | repository url => some url
  | checkoutRepository url => some url
  | deleteRepository url => some url
  | _ => none

/-- What is wrong with the arguments of a request, if anything. -/
def flaw? (r : Request) : Option String :=
  match r.repository?.filter fun a => !a.key.isComplete with
  | some a => some (Text.quoted a.resource ++ " / " ++ Text.quoted a.slug
      ++ " does not name a repository")
  | none =>
    if (r.document?.any fun d => Text.isBlankText d.filepath) then some "filepath is empty"
    else if r.address?.any Text.isBlankText then some "url is empty"
    else none

/-- The request of a name and arguments. -/
def parse (name : String) (info : Json) : Except Error Request :=
  match decode name info with
  | .error e => .error e
  | .ok r =>
    match r.flaw? with
    | some reason => .error (.invalid name reason)
    | none => .ok r

end Request

end CodeNav
