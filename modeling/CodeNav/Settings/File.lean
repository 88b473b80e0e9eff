import CodeNav.FileSystem.Basic
import CodeNav.Json.Shape.Text
import CodeNav.Settings

/-!
# Stored settings

The settings of a user are kept in one file. They are replaced in three steps, of which only the
last one touches the file: the folder is made, the new text is written beside the file, and the new
file takes its place. So the file holds the old settings or the new ones, whichever step fails.

## Main definitions

* `SettingsFile`: where settings are kept, and what they are while nothing is kept
* `SettingsFile.load`: the stored settings
* `SettingsFile.SaveStep`, `SettingsFile.perform`, `SettingsFile.save`: replacing them
-/

namespace CodeNav

/-- The file in which settings are kept, and the settings while it is missing. -/
structure SettingsFile where
  path : Path
  defaults : Settings
  deriving Inhabited

/-- Why settings were not loaded or not saved. -/
inductive SettingsError where
  | unreadable (path : Path) (cause : FileSystem.Cause)
  | notText (path : Path)
  | badText (path : Path) (reason : String)
  | folderNotMade (folder : Path) (cause : FileSystem.Cause)
  | notWritten (staging : Path) (cause : FileSystem.Cause)
  | notReplaced (path : Path) (cause : FileSystem.Cause)
  deriving DecidableEq, Inhabited

/-- The wording of an error without what caused it. -/
def SettingsError.context : SettingsError → String
  | unreadable path _ => "failed to read settings: " ++ path.text
  | notText path => "failed to read settings: " ++ path.text
  | badText path _ => "failed to parse settings: " ++ path.text
  | folderNotMade folder _ => "failed to create " ++ folder.text
  | notWritten staging _ => "failed to write " ++ staging.text
  | notReplaced path _ => "failed to replace " ++ path.text

/-- What caused an error. -/
def SettingsError.cause : SettingsError → String
  | unreadable _ c => c.message
  | notText _ => "stream did not contain valid UTF-8"
  | badText _ reason => reason
  | folderNotMade _ c => c.message
  | notWritten _ c => c.message
  | notReplaced _ c => c.message

/-- The wording of an error with what caused it. -/
def SettingsError.chain (e : SettingsError) : String :=
  e.context ++ ": " ++ e.cause

namespace SettingsFile

/-- The settings that a text holds. -/
def parse (path : Path) (text : String) : Except SettingsError Settings :=
  let cs := Json.byteText (Text.utf8Bytes text.toList)
  match Settings.shape.read cs with
  | .ok j => .ok (Settings.ofNormal j)
  | .error f => .error (.badText path (f.message cs))

/-- The stored settings. -/
def load (f : SettingsFile) (fs : FileSystem) : Except SettingsError Settings :=
  match fs.read f.path with
  | .error .notFound => .ok f.defaults
  | .error c => .error (.unreadable f.path c)
  | .ok bytes =>
    match String.fromUTF8? bytes with
    | none => .error (.notText f.path)
    | some text => parse f.path text

/-- The text under which settings are stored. -/
def render (s : Settings) : String :=
  s.toJson.indented

/-- The file beside the stored one in which the new text is written first. -/
def staging (f : SettingsFile) : Path :=
  f.path.withSuffix "json.tmp"

/-- The steps in which settings are replaced. -/
inductive SaveStep where
  | makeFolder
  | writeStaging
  | replace
  deriving DecidableEq, Inhabited

/-- The step after another one. -/
def SaveStep.next? : SaveStep → Option SaveStep
  | makeFolder => some writeStaging
  | writeStaging => some replace
  | replace => none

/-- Performs a step. -/
def perform (f : SettingsFile) (s : Settings) (step : SaveStep) (fs : FileSystem) :
    Except SettingsError FileSystem :=
  match step with
  | .makeFolder =>
    match f.path.parent? with
    | none => .ok fs
    | some folder =>
      match fs.makeDirs folder with
      | .ok fs => .ok fs
      | .error c => .error (.folderNotMade folder c)
  | .writeStaging =>
    match fs.write f.staging ⟨(Text.utf8Bytes (render s).toList).toArray⟩ with
    | .ok fs => .ok fs
    | .error c => .error (.notWritten f.staging c)
  | .replace =>
    match fs.rename f.staging f.path with
    | .ok fs => .ok fs
    | .error c => .error (.notReplaced f.path c)

/-- The files after a step has failed. Some of the folders that lead to the file may have been made. -/
def leftBy (f : SettingsFile) (step : SaveStep) (fs : FileSystem) : FileSystem :=
  match step, f.path.parent? with
  | .makeFolder, some folder => fs.madeBefore folder
  | _, _ => fs

/-- Replaces the stored settings. What was done before a step that fails stays done. -/
def save (f : SettingsFile) (s : Settings) (fs : FileSystem) :
    Except SettingsError Unit × FileSystem :=
  match f.perform s .makeFolder fs with
  | .error e => (.error e, f.leftBy .makeFolder fs)
  | .ok fs =>
    match f.perform s .writeStaging fs with
    | .error e => (.error e, f.leftBy .writeStaging fs)
    | .ok fs =>
      match f.perform s .replace fs with
      | .error e => (.error e, f.leftBy .replace fs)
      | .ok fs => (.ok (), fs)

end SettingsFile

end CodeNav
