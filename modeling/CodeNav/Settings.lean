import CodeNav.Context
import CodeNav.Json.Shape

/-!
# User settings

What a user chooses on the options page: the server, the platform's libraries and target, whether
repositories are checked out by themselves, and the access token of the code host. An update names
only the settings that change.

## Main definitions

* `Settings`: all settings, with `Settings.usual` for a user who has chosen nothing
* `Settings.Update`, `Settings.apply`: settings that change
* `Settings.context`: what the settings mean for calls
* `Settings.ofJson`, `Settings.toJson`, `Settings.Update.ofJson`: their written forms
-/

namespace CodeNav

open Json (Shape Mismatch Label Absence possible)

/-- Which server sessions start. -/
inductive ServerChoice where
  | usual
  /-- The server that the settings name. -/
  | custom
  deriving DecidableEq, Inhabited

/-- The word for a choice. -/
def ServerChoice.text : ServerChoice → String
  | usual => "default"
  | custom => "custom"

/-- The choice that a word stands for. -/
def ServerChoice.ofText? (s : String) : Option ServerChoice :=
  if s = "default" then some .usual else if s = "custom" then some .custom else none

/-- The settings of a user. -/
structure Settings where
  server : ServerChoice
  serverPath : String
  sdk : String
  sdkPath : String
  target : String
  toolchain : String
  autoCheckout : Bool
  accessToken : String
  deriving DecidableEq, Inhabited

namespace Settings

/-- The settings of a user who has chosen nothing. -/
def usual : Settings := ⟨.usual, "", "macosx", "", "", "", true, ""⟩

/-- What the settings mean for calls. The server is named only if a custom one is chosen. -/
def context (s : Settings) : Context :=
  Context.ofList (
    (if s.server = .custom then [("serverPath", s.serverPath)] else []) ++
      [("SDKPath", s.sdkPath), ("target", s.target), ("toolchain", s.toolchain),
        ("accessToken", s.accessToken)])

/-- The access token, unless it is blank. -/
def accessToken? (s : Settings) : Option String :=
  let token := Text.trimmed s.accessToken
  if token = "" then none else some token

/-- Settings that change; the others keep their value. -/
structure Update where
  server : Option ServerChoice
  serverPath : Option String
  sdk : Option String
  sdkPath : Option String
  target : Option String
  toolchain : Option String
  autoCheckout : Option Bool
  accessToken : Option String
  deriving DecidableEq, Inhabited

/-- The settings after an update. -/
def apply (s : Settings) (u : Update) : Settings where
  server := u.server.getD s.server
  serverPath := u.serverPath.getD s.serverPath
  sdk := u.sdk.getD s.sdk
  sdkPath := u.sdkPath.getD s.sdkPath
  target := u.target.getD s.target
  toolchain := u.toolchain.getD s.toolchain
  autoCheckout := u.autoCheckout.getD s.autoCheckout
  accessToken := u.accessToken.getD s.accessToken

/-- The words for the choice of a server. -/
def serverWords : List String := ["default", "custom"]

/-- A setting that has its usual value when it is missing. -/
def member (name : String) (usual : Json) (shape : Shape) : Label × Shape :=
  (⟨name, none, .means usual⟩, shape)

/-- The written form of the settings. -/
def shape : Shape :=
  .record "Settings"
    [member "server" (.string "default") (.word serverWords),
      member "server_path" (.string "") .text, member "sdk" (.string "macosx") .text,
      member "sdk_path" (.string "") .text, member "target" (.string "") .text,
      member "toolchain" (.string "") .text, member "auto_checkout" (.bool true) .truth,
      member "access_token_github" (.string "") .text]

/-- The settings of a value in normal form. -/
def ofNormal (j : Json) : Settings where
  server := (ServerChoice.ofText? (j.textAt "server")).getD .usual
  serverPath := j.textAt "server_path"
  sdk := j.textAt "sdk"
  sdkPath := j.textAt "sdk_path"
  target := j.textAt "target"
  toolchain := j.textAt "toolchain"
  autoCheckout := (j.truthAt? "auto_checkout").getD true
  accessToken := j.textAt "access_token_github"

/-- The settings that a value describes. -/
def ofJson (j : Json) : Except Mismatch Settings :=
  (shape.accept j).map ofNormal

/-- The settings as a value, with the members in the order of the options page. -/
def toJson (s : Settings) : Json :=
  .object
    [("server", .string s.server.text), ("server_path", .string s.serverPath),
      ("sdk", .string s.sdk), ("sdk_path", .string s.sdkPath), ("target", .string s.target),
      ("toolchain", .string s.toolchain), ("auto_checkout", .bool s.autoCheckout),
      ("access_token_github", .string s.accessToken)]

/-- The written form of an update. The options page sends truth values as numbers. -/
def Update.shape : Shape :=
  .record "SettingsUpdate"
    [possible "server" (.word serverWords), possible "server_path" .text, possible "sdk" .text,
      possible "sdk_path" .text, possible "target" .text, possible "toolchain" .text,
      possible "auto_checkout" (.switch "Flag"), possible "access_token_github" .text]

/-- The update of a value in normal form. -/
def Update.ofNormal (j : Json) : Update where
  server := (j.textAt? "server").bind ServerChoice.ofText?
  serverPath := j.textAt? "server_path"
  sdk := j.textAt? "sdk"
  sdkPath := j.textAt? "sdk_path"
  target := j.textAt? "target"
  toolchain := j.textAt? "toolchain"
  autoCheckout := j.truthAt? "auto_checkout"
  accessToken := j.textAt? "access_token_github"

/-- The update that a value describes. -/
def Update.ofJson (j : Json) : Except Mismatch Update :=
  (Update.shape.accept j).map Update.ofNormal

end Settings

end CodeNav
