import CodeNav.CommandLine.Arguments
import CodeNav.CommandLine.Report
import CodeNav.Rehearsal.Bridges
import CodeNav.Rehearsal.Syncs

/-!
# Rehearsing the command line

The program is started on a machine with files, variables and a shell.

## Main definitions

* `Terminal`: the machine
* `Terminal.run`: the program on words of a command line
-/

namespace CodeNav.Rehearsal

/-- A machine on which the program is started. -/
structure Terminal where
  fs : FileSystem
  folder : Path
  vars : List (String × String)
  /-- The bytes that the program may read. -/
  input : List UInt8
  /-- How many replies are waited for before the input ends. -/
  expected : Nat

/-- How the program ended. -/
structure Exit where
  code : Nat
  replies : List Json
  output : String
  messages : String

namespace Exit

/-- The program ended with a transcript. -/
def ofTranscript (t : CommandLine.Transcript) : Exit :=
  ⟨if t.failed then 1 else 0, [], t.output, t.messages⟩

/-- The program stopped before it began. -/
def ofStop : CommandLine.Stop → Exit
  | .wrong => ⟨2, [], "", ""⟩
  | .help => ⟨0, [], "Usage: sourcelens [OPTIONS] [ORIGIN]... [COMMAND]\n", ""⟩
  | .version => ⟨0, [], "sourcelens " ++ programVersion ++ "\n", ""⟩

end Exit

namespace Terminal

/-- The folders of the user. -/
def folders (t : Terminal) : UserFolders :=
  .ofEnv t.vars ((t.vars.lookup "HOME").map Path.mk)

/-- A program with arguments. -/
def start (t : Terminal) (program : String) (args : List String) : Except String ProgramRun :=
  match Shell.runProgram t.fs t.folder t.vars none program args with
  | .error fault => .error fault.message
  | .ok (status, pieces, _, _) => .ok ⟨status.getD (.exited 0), pieces⟩

/-- The report on the configuration. -/
def doctor (t : Terminal) (loaded : LoadedConfig) : Exit :=
  let command := CommandLine.serverCommand loaded (t.vars.lookup Preflight.variableName)
  .ofTranscript (CommandLine.doctor loaded t.folders (t.fs.present loaded.checkoutRoot) command
    (t.start command Preflight.arguments)
    (t.start loaded.config.syncConfig.gitCommand CommandLine.gitArguments))

/-- The commands of the machine. -/
def workshop (t : Terminal) (loaded : LoadedConfig) : Workshop :=
  .withHost ⟨t.folder, t.vars, loaded.config.syncConfig.commandTimeout⟩

/-- A synchronization. -/
def sync (t : Terminal) (loaded : LoadedConfig) (url : String) (force : Bool)
    (token : Option String) : Exit :=
  let c := loaded.config.syncConfig
  let options : SyncOptions := ⟨loaded.checkoutRoot, c.gitCommand, c.buildCommand, c.commandTimeout⟩
  let stage : SyncStage := ⟨options, ⟨t.fs, .none, .empty⟩, t.workshop loaded⟩
  let (heard, after) :=
    SyncStage.stage.call none (SyncStage.synchronize url force token) (.opening stage)
  match heard with
  | .result (.synchronized result) =>
    .ofTranscript (CommandLine.synchronized url result after.world.state.checkouts.board)
  | _ => ⟨1, [], "", ""⟩

/-- Waits for replies. -/
def awaitReplies : Nat → Timed (Cast BridgeStage BrowserWait BrowserHeard) →
    List Json × Timed (Cast BridgeStage BrowserWait BrowserHeard)
  | 0, s => ([], s)
  | n + 1, s =>
    match BridgeStage.stage.call none (BridgeStage.reply []) s with
    | (.result (.reply (some r)), s) =>
      let (rs, s) := awaitReplies n s
      (r :: rs, s)
    | (_, s) => ([], s)

/-- The stage on which the browser is served. -/
def serving (t : Terminal) (loaded : LoadedConfig) : Except String BridgeStage :=
  let usual := Preflight.usualCommand (t.vars.lookup Preflight.variableName)
  match Service.ofConfig loaded t.folders usual 1 t.fs with
  | .error reason => .error reason
  | .ok (service, s) =>
    .ok ⟨service, .opening s, .opening .machine [] [], t.workshop loaded, [], [], 0⟩

/-- What has come of starting the program. -/
inductive Started where
  | ended (e : Exit)
  /-- The browser is going to be served. -/
  | serving (stage : BridgeStage)

/-- The program does what it was asked to, or is going to serve the browser. -/
def perform (t : Terminal) (loaded : LoadedConfig) (verb : CommandLine.Verb) : Started :=
  match verb with
  | .doctor => .ended (t.doctor loaded)
  | verb =>
    match ensureCheckoutRoot t.fs loaded.checkoutRoot with
    | .error e => .ended (.ofTranscript (CommandLine.misconfigured e))
    | .ok (root, fs) =>
      let t := { t with fs := fs }
      let loaded := { loaded with checkoutRoot := root }
      match verb with
      | .sync url force token => .ended (t.sync loaded url force token)
      | _ =>
        match t.serving loaded with
        | .ok stage => .serving stage
        | .error reason => .ended (.ofTranscript (CommandLine.Transcript.empty.fail reason none))

/-- The program starts on words of a command line. -/
def begin (t : Terminal) (words : List String) : Started :=
  match CommandLine.parse t.vars words with
  | .error stop => .ended (.ofStop stop)
  | .ok a =>
    match Config.load t.fs a.config a.checkoutRoot (t.vars.lookup configVariable) t.folders with
    | .error e => .ended (.ofTranscript (CommandLine.misconfigured e))
    | .ok loaded => t.perform loaded a.verb

/-- The program on words of a command line, until it ends. -/
def run (t : Terminal) (words : List String) : Exit :=
  match t.begin words with
  | .ended e => e
  | .serving stage =>
    let (replies, s) := awaitReplies t.expected (.opening (stage.write t.input))
    let (_, s) := BridgeStage.stage.call none BridgeStage.finish s
    ⟨0, replies ++ s.world.state.takeReplies.1, "", ""⟩

end Terminal

end CodeNav.Rehearsal
