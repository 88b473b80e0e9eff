import CodeNav.Rehearsal.Files
import CodeNav.Rehearsal.Terminal

/-!
# The program

Reads the variables and files that matter, does what the command line asks for, and writes what comes
of it. Programs are not started: commands and servers answer as on a machine that has none.
-/

namespace CodeNav

open Rehearsal (Terminal FileItem BridgeStage BrowserWait BrowserHeard Timed Cast)

/-- The variables that the program looks at. -/
def knownVariables : List String :=
  ["HOME", "XDG_CONFIG_HOME", "XDG_DATA_HOME", configVariable, Preflight.variableName,
    CommandLine.rootVariable, CommandLine.tokenVariable]

/-- The values of the variables. -/
def readVariables : IO (List (String × String)) :=
  knownVariables.filterMapM fun name => do
    let value ← IO.getEnv name
    return value.map fun v => (name, v)

/-- The file or the folder at a path, when there is one that can be read. -/
def readItem? (p : Path) : IO (Option FileItem) := do
  try
    let bytes ← IO.FS.readBinFile p.text
    return some ⟨p, .bytes bytes.toList, false, none⟩
  catch
    | .inappropriateType .. => return some ⟨p, .folder, false, none⟩
    | _ => return none

/-- The files in which a configuration may be. -/
def configPaths (vars : List (String × String)) (words : List String) (folders : UserFolders) :
    List Path :=
  let named := match CommandLine.parse vars words with
    | .ok a => a.config.toList
    | .error _ => []
  named ++ ((vars.lookup configVariable).map Path.mk).toList ++ folders.configFiles

/-- The machine as far as the program looks at it. -/
def readMachine (words : List String) : IO Terminal := do
  let vars ← readVariables
  let folders : UserFolders := .ofEnv vars ((vars.lookup "HOME").map Path.mk)
  let items ← (configPaths vars words folders).filterMapM readItem?
  let fs := Rehearsal.layOutAll .empty items
  let named := match CommandLine.parse vars words with
    | .ok a => a
    | .error _ => ⟨none, none, .serve⟩
  let more ← match Config.load fs named.config named.checkoutRoot (vars.lookup configVariable)
      folders with
    | .error _ => pure []
    | .ok loaded =>
      let settings ← (loaded.config.hostConfig folders.configFolder).settingsPath.toList.filterMapM
        readItem?
      let root ← [loaded.checkoutRoot].filterMapM readItem?
      pure (settings ++ root)
  return ⟨Rehearsal.layOutAll fs more, ⟨"/"⟩, vars, [], 0⟩

/-- The stored settings. -/
def storedSettings (s : BridgeStage) : Option ByteArray :=
  (s.bridge.state.checkouts.fs.read s.service.settings.path).toOption

/-- Writes the settings when they have changed. -/
def keepSettings (before after : BridgeStage) : IO Unit := do
  let path := after.service.settings.path
  match storedSettings after with
  | some bytes =>
    if (storedSettings before).map (·.toList) != some bytes.toList then
      match path.parent? with
      | some folder => IO.FS.createDirAll folder.text
      | none => pure ()
      IO.FS.writeBinFile path.text bytes
  | none => pure ()

/-- Serves the browser: hands on what has come in, lets the time pass that has passed, and writes the
replies. -/
partial def serveInput (input output : IO.FS.Stream) (pending : Option (Task (Except IO.Error ByteArray)))
    (since : Nat) (t : Timed (Cast BridgeStage BrowserWait BrowserHeard)) : IO Unit := do
  let pending ← match pending with
    | some task => pure task
    | none => IO.asTask (input.read Bridge.readSize.toUSize)
  let finished ← IO.hasFinished pending
  let state := t.world.state
  let (state', next) := if finished then
      match pending.get with
      | .ok bytes =>
        if bytes.isEmpty then
          (state.withBridge { state.bridge with inputEnded := true }, some pending)
        else (state.write bytes.toList, none)
      | .error _ => (state.withBridge { state.bridge with inputEnded := true }, some pending)
    else (state, some pending)
  let now ← IO.monoMsNow
  let t := BridgeStage.stage.play.passTime (now - since)
    ⟨t.now, { t.world with state := state' }⟩
  let (replies, after) := t.world.state.takeReplies
  for reply in replies do
    output.write ⟨((Frame.encode reply).getD []).toArray⟩
  output.flush
  keepSettings state after
  if after.bridge.isEnded then return ()
  IO.sleep 5
  serveInput input output next now ⟨t.now, { t.world with state := after }⟩

end CodeNav

/-- The program. -/
def main (words : List String) : IO UInt32 := do
  let machine ← CodeNav.readMachine words
  match machine.begin words with
  | .ended e =>
    IO.print e.output
    IO.eprint e.messages
    return e.code.toUInt32
  | .serving stage =>
    CodeNav.serveInput (← IO.getStdin) (← IO.getStdout) none (← IO.monoMsNow) (.opening stage)
    return 0
