import CodeNav.Json.Shape
import CodeNav.Path
import CodeNav.Text.Blank

/-!
# Configuration

A configuration file has three sections: how language servers are started, how repositories are
brought up to date, and how the browser is served. Everything in it may be missing; resolving a
section fills in what is then meant.

## Main definitions

* `Config`, with `ServerSection`, `SyncSection` and `HostSection`: what a file says
* `Config.shape`, `Config.ofNormal`, `Config.toJson`: its written form
* `ServerConfig`, `SyncConfig`, `HostConfig`: what it means
-/

namespace CodeNav

open Json (Shape setting)

/-- What a file says about language servers. -/
structure ServerSection where
  command : Option String
  args : Option (List String)
  initializeTimeout : Option Nat
  requestTimeout : Option Nat
  env : Option (List (String × String))
  deriving DecidableEq, Inhabited

/-- What a file says about repositories. -/
structure SyncSection where
  gitCommand : Option String
  buildCommand : Option (List String)
  autoCheckout : Option Bool
  commandTimeout : Option Nat
  deriving DecidableEq, Inhabited

/-- What a file says about serving the browser. -/
structure HostSection where
  progressPoll : Option Nat
  settingsPath : Option String
  deriving DecidableEq, Inhabited

/-- What a configuration file says. -/
structure Config where
  checkoutRoot : Option String
  server : Option ServerSection
  sync : Option SyncSection
  host : Option HostSection
  deriving DecidableEq, Inhabited

/-- How language servers are started. Times are in milliseconds. -/
structure ServerConfig where
  command : Option String
  args : List String
  /-- How long a server may take to get ready, when it is limited. -/
  initializeTimeout : Option Nat
  /-- How long a server may take to answer, when it is limited. -/
  requestTimeout : Option Nat
  /-- Environment variables in the order of their names. -/
  env : List (String × String)
  deriving DecidableEq, Inhabited

/-- How repositories are brought up to date. -/
structure SyncConfig where
  gitCommand : String
  /-- Nothing is built when this is empty. -/
  buildCommand : List String
  autoCheckout : Bool
  /-- How long a command may take, when it is limited. -/
  commandTimeout : Option Nat
  deriving DecidableEq, Inhabited

/-- How the browser is served. -/
structure HostConfig where
  /-- How long a request for build progress waits for news. -/
  progressPoll : Nat
  settingsPath : Option Path
  deriving DecidableEq, Inhabited

namespace ServerSection

/-- The written form. -/
def shape : Shape :=
  .record "ServerConfig"
    [setting "command" none .text, setting "args" none (.list .text),
      setting "initialize_timeout_ms" (some "initializeTimeoutMs") (.natural 64),
      setting "request_timeout_ms" (some "requestTimeoutMs") (.natural 64),
      setting "env" none (.table .text)]

/-- The section of a value in normal form. -/
def ofNormal (j : Json) : ServerSection where
  command := j.textAt? "command"
  args := if (j.memberAt "args").isNull then none else some (j.textsAt "args")
  initializeTimeout := j.natAt? "initialize_timeout_ms"
  requestTimeout := j.natAt? "request_timeout_ms"
  env := if (j.memberAt "env").isNull then none else some (j.textTableAt "env")

/-- The section as a value. -/
def toJson (s : ServerSection) : Json :=
  Json.ofFields
    [("command", Json.ofString? s.command), ("args", (s.args.map Json.strings).getD .null),
      ("initialize_timeout_ms", Json.ofNat? s.initializeTimeout),
      ("request_timeout_ms", Json.ofNat? s.requestTimeout),
      ("env", (s.env.map fun env =>
        Json.ofFields (env.map fun (k, v) => (k, Json.string v))).getD .null)]

end ServerSection

namespace SyncSection

/-- The written form. -/
def shape : Shape :=
  .record "SyncConfig"
    [setting "git_command" (some "gitCommand") .text,
      setting "build_command" (some "buildCommand") (.list .text),
      setting "auto_checkout" (some "autoCheckout") .truth,
      setting "command_timeout_ms" (some "commandTimeoutMs") (.natural 64)]

/-- The section of a value in normal form. -/
def ofNormal (j : Json) : SyncSection where
  gitCommand := j.textAt? "git_command"
  buildCommand :=
    if (j.memberAt "build_command").isNull then none else some (j.textsAt "build_command")
  autoCheckout := j.truthAt? "auto_checkout"
  commandTimeout := j.natAt? "command_timeout_ms"

/-- The section as a value. -/
def toJson (s : SyncSection) : Json :=
  Json.ofFields
    [("git_command", Json.ofString? s.gitCommand),
      ("build_command", (s.buildCommand.map Json.strings).getD .null),
      ("auto_checkout", (s.autoCheckout.map Json.bool).getD .null),
      ("command_timeout_ms", Json.ofNat? s.commandTimeout)]

end SyncSection

namespace HostSection

/-- The written form. -/
def shape : Shape :=
  .record "HostConfig"
    [setting "progress_poll_ms" (some "progressPollMs") (.natural 64),
      setting "settings_path" (some "settingsPath") .pathText]

/-- The section of a value in normal form. -/
def ofNormal (j : Json) : HostSection where
  progressPoll := j.natAt? "progress_poll_ms"
  settingsPath := j.textAt? "settings_path"

/-- The section as a value. -/
def toJson (s : HostSection) : Json :=
  Json.ofFields
    [("progress_poll_ms", Json.ofNat? s.progressPoll),
      ("settings_path", Json.ofString? s.settingsPath)]

end HostSection

namespace Config

/-- What a file that is empty says. -/
def empty : Config := ⟨none, none, none, none⟩

/-- The written form. -/
def shape : Shape :=
  .record "SourcelensConfig"
    [setting "checkout_root" (some "checkoutRoot") .pathText,
      setting "server" none ServerSection.shape, setting "sync" none SyncSection.shape,
      setting "host" none HostSection.shape]

/-- A section of a value in normal form, when it is there. -/
def sectionAt {α : Type} (j : Json) (name : String) (ofNormal : Json → α) : Option α :=
  let s := j.memberAt name
  if s.isNull then none else some (ofNormal s)

/-- The configuration of a value in normal form. -/
def ofNormal (j : Json) : Config where
  checkoutRoot := j.textAt? "checkout_root"
  server := sectionAt j "server" ServerSection.ofNormal
  sync := sectionAt j "sync" SyncSection.ofNormal
  host := sectionAt j "host" HostSection.ofNormal

/-- The configuration as a value. -/
def toJson (c : Config) : Json :=
  Json.ofFields
    [("checkout_root", Json.ofString? c.checkoutRoot),
      ("server", (c.server.map ServerSection.toJson).getD .null),
      ("sync", (c.sync.map SyncSection.toJson).getD .null),
      ("host", (c.host.map HostSection.toJson).getD .null)]

end Config

/-- A time limit, of which zero is none. -/
def positive? (ms : Option Nat) : Option Nat :=
  ms.filter (0 < ·)

/-- How servers are started when nothing is said. -/
def ServerConfig.usual : ServerConfig := ⟨none, [], none, none, []⟩

/-- What a configuration means for servers. -/
def Config.serverConfig (c : Config) : ServerConfig :=
  match c.server with
  | none => .usual
  | some s =>
    { command := (s.command.map Text.trimmed).filter (· ≠ "")
      args := s.args.getD []
      initializeTimeout := s.initializeTimeout
      requestTimeout := positive? s.requestTimeout
      env := s.env.getD [] }

/-- What a configuration means for repositories. -/
def Config.syncConfig (c : Config) : SyncConfig :=
  let s := c.sync.getD ⟨none, none, none, none⟩
  { gitCommand := (s.gitCommand.filter fun g => !Text.isBlankText g).getD "git"
    buildCommand := (s.buildCommand.getD []).filter (· ≠ "")
    autoCheckout := s.autoCheckout.getD true
    commandTimeout := positive? s.commandTimeout }

/-- How long a request for build progress waits for news when nothing is said. -/
def usualProgressPoll : Nat := 10000

/-- What a configuration means for the browser, with the folder of the user's own files. -/
def Config.hostConfig (c : Config) (configFolder : Option Path) : HostConfig :=
  let s := c.host.getD ⟨none, none⟩
  { progressPoll := (positive? s.progressPoll).getD usualProgressPoll
    settingsPath := (s.settingsPath.map Path.mk).orElse fun _ =>
      configFolder.map fun folder => folder.join "settings.json" }

end CodeNav
