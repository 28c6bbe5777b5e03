import LogPager.Files.Tree
import LogPager.Settings.Reading

/-!
# Loading settings

Settings files are looked for from a folder upward and in the folder of the
user.  The file of the user lies over the defaults, the one that was found over
both, and the result is checked once.
-/

namespace LogPager
namespace Settings

/-- The wording for bytes that are no text. -/
def notText : String := "stream did not contain valid UTF-8"

def readFile (files : FileSystem) (path : String) :
    Except SettingsError String :=
  match files.node? path with
  | some (.file bytes) =>
      (Text.Utf8.decode? bytes).elim (.error (.io path notText)) .ok
  | some _ => .error (.io path FileSystem.folderText)
  | none => .error (.io path FileSystem.missingText)

def readOverrides (files : FileSystem) (path : String) :
    Except SettingsError Overrides := do
  let text ← readFile files path
  match Overrides.ofText text with
  | .ok overrides => return overrides
  | .error fault => .error (.parse path (.ofMessage fault.message))

/-- The settings, unless they have a flaw; the flaw is reported for a file. -/
def check (path : String) (settings : Settings) :
    Except SettingsError Settings :=
  match settings.flaw? with
  | some flaw => .error (.validation path flaw.message)
  | none => .ok settings

def loadFile (home : String) (files : FileSystem) (path : String) :
    Except SettingsError Settings := do
  let overrides ← readOverrides files path
  check path (overlay home {} overrides)

/-- The settings files that were found. -/
structure Found where
  /-- The nearest file of a project. -/
  project : Option String := none
  /-- The file of the user. -/
  global : Option String := none
deriving DecidableEq, Repr

namespace Found

def any (found : Found) : Bool :=
  found.project.isSome || found.global.isSome

/-- The files, the lowest layer first. -/
def layers (found : Found) : List String :=
  found.global.toList ++ found.project.toList

end Found

/-- The settings of all files that were found.  A flaw is reported for the
topmost file, and without any file nothing is checked. -/
def load (home : String) (files : FileSystem) (found : Found) :
    Except SettingsError Settings := do
  let settings ← found.layers.foldlM
    (fun settings path =>
      (readOverrides files path).map (overlay home settings)) {}
  match found.layers.getLast? with
  | some path => check path settings
  | none => return settings

def projectFile : String := "chunktail.yaml"

/-- Where the settings file of the user is, from the home folder. -/
def globalFile : String := ".config/chunktail/config.yaml"

/-- Where a settings file may be for a start: there and in all folders above
it, the nearest first.  The start lies in the tree. -/
def projectCandidates (files : FileSystem) (start : String) : List String :=
  let below := start.toList.drop files.top.length
  (Path.ancestors below).map fun folder =>
    Path.join (files.top ++ String.ofList folder) projectFile

/-- Look for settings files from a start upward, and for the file of the
user. -/
def search (files : FileSystem) (start : String) (global : Option String) :
    Found where
  project := (projectCandidates files start).find? files.isFile
  global := global.filter files.isFile

end Settings
end LogPager
