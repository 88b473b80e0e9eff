import CodeNav.Config.Basic
import CodeNav.FileSystem.Basic
import CodeNav.Json.Shape.Text
import CodeNav.Text.Letters
import CodeNav.Toml.Parser

/-!
# Finding and reading the configuration

The configuration is read from the file that the command line names, else from the one that the
environment names, else from the first of the user's own files that is there. The checkout root is
that of the command line, of the configuration, or below the user's data folder.

## Main definitions

* `UserFolders`: the folders of a user, from the environment by `UserFolders.ofEnv`
* `Config.ofFile`: a configuration file
* `Config.load`: the configuration, where it is from, and the checkout root
* `ensureCheckoutRoot`: makes the checkout root
-/

namespace CodeNav

/-- The folders in which a user keeps files of programs. -/
structure UserFolders where
  configHome : Option Path
  dataHome : Option Path
  home : Option Path
  deriving DecidableEq, Inhabited

/-- The name of the program's folder among those of other programs. -/
def appFolder : String := "sourcelens"

/-- The variable that names the configuration file. -/
def configVariable : String := "SOURCELENS_CONFIG_PATH"

namespace UserFolders

/-- The folders that environment variables name. A blank name counts as none; `home` is given. -/
def ofEnv (env : List (String × String)) (home : Option Path) : UserFolders where
  configHome := ((env.lookup "XDG_CONFIG_HOME").filter fun v => !Text.isBlankText v).map Path.mk
  dataHome := ((env.lookup "XDG_DATA_HOME").filter fun v => !Text.isBlankText v).map Path.mk
  home := home

/-- Where the program's configuration is. -/
def configFolder (u : UserFolders) : Option Path :=
  (u.configHome.orElse fun _ => u.home.map fun h => h.join ".config").map fun d => d.join appFolder

/-- Where the program's data is. -/
def dataFolder (u : UserFolders) : Option Path :=
  (u.dataHome.orElse fun _ => u.home.map fun h => h.join ".local/share").map fun d =>
    d.join appFolder

end UserFolders

/-- Why there is no configuration. -/
inductive ConfigError where
  | unreadable (path : Path) (cause : FileSystem.Cause)
  | notText (reason : String)
  | badToml
  | badJson (reason : String)
  | unknownKind (path : Path)
  | noCheckoutRoot
  | rootNotMade (root : Path) (cause : FileSystem.Cause)
  | rootNotFound (root : Path) (cause : FileSystem.Cause)
  deriving DecidableEq

/-- The wording of an error, without what caused it. -/
def ConfigError.message : ConfigError → String
  | unreadable path _ => "failed to read config file: " ++ path.quoted
  | notText _ => "config file is not valid UTF-8"
  | badToml => "failed to parse TOML config"
  | badJson _ => "failed to parse JSON config"
  | unknownKind path => "unsupported config extension (expected .toml or .json): " ++ path.quoted
  | noCheckoutRoot =>
    "cannot determine checkout root: neither XDG_DATA_HOME nor a home directory is available"
  | rootNotMade root _ => "failed to create checkout root: " ++ root.quoted
  | rootNotFound root _ => "failed to canonicalize checkout root: " ++ root.quoted

/-- What caused an error, where more can be said. -/
def ConfigError.cause? : ConfigError → Option String
  | unreadable _ c => some c.message
  | notText reason => some reason
  | badToml => some "TOML parse error"
  | badJson reason => some reason
  | rootNotMade _ c => some c.message
  | rootNotFound _ c => some c.message
  | _ => none

/-- The wording of an error with what caused it. -/
def ConfigError.chain (e : ConfigError) : String :=
  match e.cause? with
  | some c => e.message ++ ": " ++ c
  | none => e.message

/-- Where a configuration is from. -/
inductive ConfigSource where
  | nowhere
  | commandLine (path : Path)
  | environment (path : Path)
  | user (path : Path)
  deriving DecidableEq

/-- A configuration with where it is from and the checkout root. -/
structure LoadedConfig where
  config : Config
  checkoutRoot : Path
  source : ConfigSource

/-- The configuration that a file in TOML holds. Lists may be longer than records there. -/
def Config.ofToml? (text : String) : Option Config := do
  let doc ← Toml.parse? text
  let j ← (Config.shape.acceptWith true doc).toOption
  some (Config.ofNormal j)

/-- The configuration that a file in JSON holds. -/
def Config.ofJson (bytes : List UInt8) : Except String Config :=
  let cs := Json.byteText bytes
  match Config.shape.read cs with
  | .ok j => .ok (Config.ofNormal j)
  | .error f => .error (f.message cs)

/-- The configuration that a file holds; the end of its name tells how it is written. -/
def Config.ofFile (fs : FileSystem) (path : Path) : Except ConfigError Config :=
  match fs.read path with
  | .error c => .error (.unreadable path c)
  | .ok bytes =>
    let suffix := path.suffix?.getD ""
    if Text.sameLetters suffix "toml" then
      match String.fromUTF8? bytes with
      | none => .error (.notText ((Text.utf8Fault? bytes.toList).getD ""))
      | some text =>
        match Config.ofToml? text with
        | some c => .ok c
        | none => .error .badToml
    else if Text.sameLetters suffix "json" then
      match Config.ofJson bytes.toList with
      | .ok c => .ok c
      | .error reason => .error (.badJson reason)
    else .error (.unknownKind path)

/-- The user's own files in which a configuration may be, in the order in which they are tried. -/
def UserFolders.configFiles (u : UserFolders) : List Path :=
  match u.configFolder with
  | none => []
  | some folder => [folder.join "config.toml", folder.join "config.json"]

/-- The configuration and where it is from. -/
def Config.find (fs : FileSystem) (named : Option Path) (fromEnv : Option String)
    (folders : UserFolders) : Except ConfigError (Config × ConfigSource) :=
  match named with
  | some path => (Config.ofFile fs path).map fun c => (c, .commandLine path)
  | none =>
    match fromEnv.filter fun p => !Text.isBlankText p with
    | some path => (Config.ofFile fs ⟨path⟩).map fun c => (c, .environment ⟨path⟩)
    | none =>
      match folders.configFiles.find? fs.present with
      | some path => (Config.ofFile fs path).map fun c => (c, .user path)
      | none => .ok (.empty, .nowhere)

/-- The configuration with the checkout root. -/
def Config.load (fs : FileSystem) (named root : Option Path) (fromEnv : Option String)
    (folders : UserFolders) : Except ConfigError LoadedConfig := do
  let (config, source) ← Config.find fs named fromEnv folders
  let chosen := root.orElse fun _ => (config.checkoutRoot.map Path.mk).orElse fun _ =>
    folders.dataFolder.map fun d => d.join "checkouts"
  match chosen with
  | some root => .ok ⟨config, root, source⟩
  | none => .error .noCheckoutRoot

/-- Makes the checkout root when it is missing, and gives its path without links. -/
def ensureCheckoutRoot (fs : FileSystem) (root : Path) :
    Except ConfigError (Path × FileSystem) :=
  match fs.makeDirs root with
  | .error c => .error (.rootNotMade root c)
  | .ok fs =>
    match fs.canonical root with
    | .error c => .error (.rootNotFound root c)
    | .ok path => .ok (path, fs)

end CodeNav
