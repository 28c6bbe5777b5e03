import LogPager.CommandLine.Arguments
import LogPager.CommandLine.Follow

/-!
# The program

The outer layer reads the files the program needs into a tree, launches it and
prints what comes out.  It does not list folders itself: unless a file is asked
for by name, the names of the entries of the log folder are read from standard
input, one a line.
-/

namespace LogPager

/-- How long to wait before a followed file is read again, in milliseconds. -/
def followPause : UInt32 := 100

def readNode (path : String) : IO (Option Node) := do
  match ← (IO.FS.readBinFile path).toBaseIO with
  | .ok bytes => return some (.file bytes.toList)
  | .error (.noFileOrDirectory ..) => return none
  | .error _ => return some (.folder [])

def importPath (files : FileSystem) (path : String) : IO FileSystem := do
  match ← readNode path with
  | some node =>
      match files.node? path with
      | some (.folder _) => return files
      | _ => return files.put path node
  | none => return files

partial def restOfLines (input : IO.FS.Stream) : IO (List String) := do
  let line ← input.getLine
  if line.isEmpty then return []
  let name := String.ofList (Text.trimEndWhere (· == '\n') line.toList)
  return name :: (← restOfLines input)

/-- The names of the log files that may be needed. -/
def neededNames (options : Options) : IO (List String) := do
  match options.file with
  | some name =>
      if options.list then restOfLines (← IO.getStdin) else return [name]
  | none => restOfLines (← IO.getStdin)

/-- What the program finds around it, with all files it will read. -/
def gather (options : Options) : IO Surroundings := do
  let home := (← IO.getEnv "HOME").getD "/"
  let here := ((← IO.getEnv "PWD").getD "/").toList
  let files : FileSystem :=
    { cwd := (Path.names here).map fun name =>
        Text.Utf8.encode (String.ofList name) }
  let files := files.makeFolder files.here
  let settingsFiles := options.config.toList ++
    Path.join home Settings.globalFile ::
      Settings.projectCandidates files files.here
  let files ← settingsFiles.foldlM importPath files
  match Surroundings.settings { files, home } options with
  | .error _ => return { files, home }
  | .ok settings =>
      let files ← importPath files settings.folder
      if files.isFolder settings.folder then
        let names ← neededNames options
        let files ← names.foldlM
          (fun files name =>
            if LogFolder.isPlainName name then
              importPath files (Path.join settings.folder name)
            else return files)
          files
        return { files, home }
      else return { files, home }

def printLines (lines : List String) : IO Unit := do
  let output ← IO.getStdout
  for line in lines do
    output.putStr (line ++ "\n")
  output.flush

/-- Follow a file until the program is stopped.  Without a watcher the file
counts as modified at every turn. -/
partial def followForever (path : String) (files : FileSystem)
    (styling : Styling) (follower : Follower) : IO Unit := do
  let files ← importPath files path
  let answer (folder : LogFolder) (request : Request) :=
    folder.fetch files request false
  match follower.turn files [.modified] answer 1 styling with
  | none => return
  | some (lines, follower) =>
      printLines lines
      IO.sleep followPause
      followForever path files styling follower

/-- Follow the file of a viewer, and the exit code. -/
def follow (files : FileSystem) (styling : Styling) (viewer : Viewer) :
    IO UInt32 := do
  let path := Path.join viewer.folder.path viewer.file.name
  let files ← importPath files path
  match Follower.start files viewer with
  | .error cause =>
      (← IO.getStderr).putStr ("Error: " ++ cause.message ++ "\n")
      return 1
  | .ok none => return 0
  | .ok (some follower) =>
      followForever path files styling follower
      return 0

/-- Run the program with some options, and its exit code. -/
def runWith (options : Options) : IO UInt32 := do
  let around ← gather options
  let styling :=
    if ← (← IO.getStdout).isTty then Styling.styled else Styling.plain
  match launch around styling options with
  | .error error =>
      (← IO.getStderr).putStr error.report
      return 1
  | .ok launched =>
      printLines launched.lines
      match options.follow, launched.viewer with
      | true, some viewer => follow around.files styling viewer
      | _, _ => return 0

def usage : String :=
  "Usage: chunktail [OPTIONS] [DIR]\n\n" ++
    "  -f, --file NAME    file to open (default: the last file by name)\n" ++
    "      --config PATH  settings file to use\n" ++
    "      --limit N      records asked for at a time\n" ++
    "  -n, --lines N      number of last records to print\n" ++
    "  -F, --follow       go on printing records as they are appended\n" ++
    "      --list         print the names of the log files\n" ++
    "  -v, --verbose      show diagnostics\n" ++
    "  -h, --help         print this text\n"

end LogPager

def main (arguments : List String) : IO UInt32 := do
  match LogPager.Options.ofArguments arguments with
  | .ok options => LogPager.runWith options
  | .error .help =>
      IO.print LogPager.usage
      return 0
  | .error _ =>
      IO.eprint LogPager.usage
      return 2
