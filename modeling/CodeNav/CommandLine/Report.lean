import CodeNav.Config.Load
import CodeNav.Server.Preflight
import CodeNav.Sync.Basic

/-!
# What the program prints

## Main definitions

* `CommandLine.Transcript`: the texts that a run of the program writes, and whether it failed
* `CommandLine.doctor`: what is wrong with the configuration, servers and commands
* `CommandLine.synchronized`: how a synchronization ended
-/

namespace CodeNav.CommandLine

/-- What a run of the program writes. -/
structure Transcript where
  output : String
  messages : String
  failed : Bool
  deriving DecidableEq, Inhabited

namespace Transcript

/-- Nothing is written. -/
def empty : Transcript := ⟨"", "", false⟩

/-- More output, as a line. -/
def say (t : Transcript) (line : String) : Transcript :=
  { t with output := t.output ++ line ++ "\n" }

/-- One more message, as a line. -/
def warn (t : Transcript) (line : String) : Transcript :=
  { t with messages := t.messages ++ line ++ "\n" }

/-- A text whose lines are set in. -/
def setIn (text : String) : String :=
  "\n".intercalate ((Text.pieces '\n' text).map ("    " ++ ·))

/-- The run fails, for a reason that may have a cause. -/
def fail (t : Transcript) (reason : String) (cause : Option String) : Transcript :=
  let t := { t.warn ("Error: " ++ reason) with failed := true }
  match cause with
  | none => t
  | some cause => (((t.warn "").warn "Caused by:").warn (setIn cause))

end Transcript

/-- The configuration could not be read, or the checkout root could not be made. -/
def misconfigured (e : ConfigError) : Transcript :=
  Transcript.empty.fail e.message e.cause?

/-- The name of an action. -/
def actionName : SyncAction → String
  | .skipped => "Skipped"
  | .cloned => "Cloned"
  | .updated => "Updated"

/-- A truth value. -/
def truthText (b : Bool) : String := if b then "true" else "false"

/-- How a synchronization ended. What its log holds is shown when it has failed. -/
def synchronized (url : String) (result : SyncResult) (board : ProgressBoard) : Transcript :=
  match result with
  | .ok o =>
    (((Transcript.empty.say ("key: " ++ o.key.text)).say ("local_path: " ++ o.path.text)).say
      ("action: " ++ actionName o.action)).say ("built: " ++ truthText o.built)
  | .error e =>
    let log := match RepositoryAddress.parse url with
      | .ok r => (board.log r.key).snapshot.text
      | .error _ => ""
    { Transcript.empty with messages := log }.fail ("failed to synchronize " ++ url)
      (some e.message)

/-- Where a configuration is from. -/
def sourceText : ConfigSource → String
  | .nowhere => "None"
  | .commandLine p => "Path(" ++ p.quoted ++ ")"
  | .environment p => "Env(" ++ p.quoted ++ ")"
  | .user p => "User(" ++ p.quoted ++ ")"

/-- A number that may be missing. -/
def numberText : Option Nat → String
  | some n => "Some(" ++ toString n ++ ")"
  | none => "None"

/-- The facts at the beginning of a report. -/
def facts (loaded : LoadedConfig) (folders : UserFolders) (rootThere : Bool) (command : String) :
    Transcript :=
  let server := loaded.config.serverConfig
  let sync := loaded.config.syncConfig
  let host := loaded.config.hostConfig folders.configFolder
  [ "config_source: " ++ sourceText loaded.source,
    "checkout_root: " ++ loaded.checkoutRoot.text,
    "checkout_root.exists: " ++ truthText rootThere,
    "settings_path: " ++ ((host.settingsPath.map Path.text).getD "<undetermined>"),
    "host.progress_poll_ms: " ++ toString host.progressPoll,
    "server.timeouts_ms: initialize=" ++ numberText server.initializeTimeout ++ " request="
      ++ numberText server.requestTimeout,
    "sync.build_command: " ++ Text.quotedList sync.buildCommand,
    "sync.auto_checkout: " ++ truthText sync.autoCheckout,
    "sync.command_timeout_ms: " ++ numberText sync.commandTimeout,
    "server.command: " ++ command ].foldl Transcript.say .empty

/-- The report on the server, and what is wrong with it. -/
def serverPart (banner : Except SessionError String) (t : Transcript) :
    Transcript × List String :=
  match banner with
  | .ok text => (t.say ("server_preflight: ok " ++ Text.quoted text), [])
  | .error e =>
    ((t.warn ("doctor_error: server error=" ++ e.message)).warn
      ("doctor_hint: Install a Swift toolchain, set server.command, or set "
        ++ Preflight.variableName ++ "."),
      ["server: " ++ e.message])

/-- The report on the command that clones, and what is wrong with it. -/
def gitPart (run : Except String ProgramRun) (t : Transcript) : Transcript × List String :=
  match run with
  | .ok r =>
    if r.status.isSuccess then
      (t.say ("git_preflight: ok "
        ++ Text.quoted (Text.trimmed (Text.utf8Shown (r.bytes .output)))), [])
    else
      (t.warn ("doctor_error: git status=" ++ r.status.text), ["git: exited with " ++ r.status.text])
  | .error reason =>
    ((t.warn ("doctor_error: git error=" ++ reason)).warn
      "doctor_hint: Install git or set sync.git_command.", ["git: " ++ reason])

/-- The server that a configuration means, with that of the environment. -/
def serverCommand (loaded : LoadedConfig) (fromEnv : Option String) : String :=
  loaded.config.serverConfig.command.getD (Preflight.usualCommand fromEnv)

/-- The arguments with which the command that clones is tried. -/
def gitArguments : List String := ["--version"]

/-- What is wrong with the configuration, the server and the command that clones. -/
def doctor (loaded : LoadedConfig) (folders : UserFolders) (rootThere : Bool) (command : String)
    (server git : Except String ProgramRun) : Transcript :=
  let t := facts loaded folders rootThere command
  let (t, serverFaults) := serverPart (Preflight.banner command server) t
  let t := t.say ("git.command: " ++ loaded.config.syncConfig.gitCommand)
  let (t, gitFaults) := gitPart git t
  match serverFaults ++ gitFaults with
  | [] => t.say "doctor: ok"
  | faults =>
    t.fail ("doctor found " ++ toString faults.length ++ " problem(s): "
      ++ "; ".intercalate faults) none

end CodeNav.CommandLine
