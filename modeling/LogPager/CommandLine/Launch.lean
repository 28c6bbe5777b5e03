import LogPager.CommandLine.Options
import LogPager.Record.Display
import LogPager.Session.Filling
import LogPager.Settings.Load

/-!
# Launching the program

The program loads its settings, opens the folder of the log files and the file
to show, and prints the last records of it.
-/

namespace LogPager

/-- Why the program ends early. -/
inductive LaunchError where
  | settings (error : SettingsError)
  /-- The folder of the log files cannot be opened. -/
  | folder (dir : String) (cause : ReadError)
  /-- The names of the log files cannot be read. -/
  | listing (cause : ReadError)
  | noLogs (dir : String)
  /-- The log file cannot be read. -/
  | reading (cause : ReadError)
deriving DecidableEq, Repr

def indented (text : String) : String :=
  "    " ++ String.ofList (text.toList.flatMap fun character =>
    if character = '\n' then "\n    ".toList else [character])

def LaunchError.report : LaunchError → String
  | settings error => error.report
  | folder dir cause =>
      "Error: Failed to open log directory " ++ dir ++ "\n\nCaused by:\n" ++
        indented cause.message ++ "\n"
  | listing cause => "Error: " ++ cause.message ++ "\n"
  | noLogs dir => "Error: No log files in " ++ dir ++ "\n"
  | reading cause =>
      "Error: Failed to read log file: " ++ cause.message ++ "\n"

/-- What the program finds around it. -/
structure Surroundings where
  files : FileSystem
  home : String

namespace Surroundings

/-- Load the settings that the options ask for, and put the options over
them. -/
def settings (around : Surroundings) (options : Options) :
    Except SettingsError Settings :=
  let loaded := match options.config with
    | some path => Settings.loadFile around.home around.files path
    | none =>
        Settings.load around.home around.files
          (Settings.search around.files around.files.here
            (some (Path.join around.home Settings.globalFile)))
  loaded.map options.apply

end Surroundings

/-- A log file that is shown. -/
structure Viewer where
  folder : LogFolder
  session : Session
  file : FileRef
  /-- The records read at a time when the file grows. -/
  batch : Nat

namespace Viewer

/-- Open a log file and hold its last records, at least `wanted` of them if
the file and the settings allow it. -/
def openAt (files : FileSystem) (folder : LogFolder) (settings : Settings)
    (file : FileRef) (wanted : Nat) : Except LaunchError Viewer :=
  let (_, session) :=
    (Session.new settings.fetchLimit settings.maxRecords).openFile file
  let (result, folder, session) :=
    session.fillOlder
      (fun folder request => folder.fetch files request false)
      wanted folder
  match result with
  | .error cause => .error (.reading cause)
  | .ok () => .ok { folder, session, file, batch := settings.fetchLimit }

/-- The last `count` held records as lines. -/
def tailLines (viewer : Viewer) (styling : Styling) (count : Nat) :
    List String :=
  viewer.session.snapshot.elim [] fun snapshot =>
    (snapshot.tail count).map (·.display styling)

end Viewer

/-- What the program prints at first, and the log file it shows if it shows
one. -/
structure Launched where
  lines : List String
  viewer : Option Viewer := none

/-- The file to open: the one that was asked for, or the last one. -/
def fileToOpen (files : FileSystem) (folder : LogFolder) (options : Options) :
    Except LaunchError FileRef :=
  match options.file with
  | some name => .ok { name }
  | none =>
      match folder.latest files with
      | .error cause => .error (.listing cause)
      | .ok none => .error (.noLogs folder.path)
      | .ok (some file) => .ok file

/-- Run the program up to the point where it would begin to follow the
file. -/
def launch (around : Surroundings) (styling : Styling) (options : Options) :
    Except LaunchError Launched := do
  let settings ← match around.settings options with
    | .error error => .error (.settings error)
    | .ok settings => .ok settings
  let folder ← match LogFolder.openAt around.files settings.folder with
    | .error cause => .error (.folder settings.folder cause)
    | .ok folder => .ok folder
  if options.list then
    match folder.list around.files with
    | .error cause => .error (.listing cause)
    | .ok refs => return { lines := refs.map (·.name) }
  let file ← fileToOpen around.files folder options
  let viewer ← Viewer.openAt around.files folder settings file options.lines
  return {
    lines := viewer.tailLines styling options.lines
    viewer := some viewer }

end LogPager
