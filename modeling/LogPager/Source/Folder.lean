import LogPager.Files.Tree
import LogPager.Source.Reading

/-!
# Folders of log files

A log source is a folder whose plain files are logs.  Their names sort in the
order of time, so the last one is the live file.  The source keeps a line map
of every file it has read.
-/

namespace LogPager

/-- A folder of logs and the line maps of those read so far. -/
structure LogFolder where
  path : String
  maps : List (String × LineMap) := []
deriving Repr

namespace LogFolder

def openAt (files : FileSystem) (path : String) : Except ReadError LogFolder :=
  if files.isFolder path then .ok { path }
  else .error (.io ("not a directory: " ++ path))

/-- A name that cannot lead out of the folder. -/
def isPlainName (name : String) : Bool :=
  name != "" && name != "." && name != ".." &&
    name.toList.all fun character => character != '/' && character != '\\'

def pathOf (folder : LogFolder) (files : FileSystem) (name : String) :
    Except ReadError String :=
  let path := Path.join folder.path name
  if isPlainName name && files.isFile path then .ok path
  else .error (.unknownFile name)

def contents? (folder : LogFolder) (files : FileSystem) (name : String) :
    Option (List UInt8) :=
  if isPlainName name then files.bytes? (Path.join folder.path name) else none

/-- A log file as an entry of its folder: its name, if that is a text, and its
size as cursor.  Folders and links are no log files. -/
def refOfEntry? : FileName × Node → Option FileRef
  | (name, .file bytes) =>
      (Text.Utf8.decode? name).map fun name =>
        { name, cursor := toString bytes.length }
  | _ => none

/-- The order of names by their bytes. -/
def nameNotAfter (left right : FileRef) : Bool :=
  !decide (Text.Utf8.encode right.name < Text.Utf8.encode left.name)

/-- All log files, in the order of their names. -/
def list (folder : LogFolder) (files : FileSystem) :
    Except ReadError (List FileRef) :=
  match files.entries? folder.path with
  | none => .error (.io FileSystem.missingText)
  | some entries => .ok ((entries.filterMap refOfEntry?).mergeSort nameNotAfter)

/-- The log file whose name is last. -/
def latest (folder : LogFolder) (files : FileSystem) :
    Except ReadError (Option FileRef) :=
  (folder.list files).map (·.getLast?)

/-- The line map of a file; at first it is empty. -/
def mapOf (folder : LogFolder) (name : String) : LineMap :=
  (folder.maps.lookup name).getD (.empty LineMap.usualInterval)

def setMap (folder : LogFolder) (name : String) (map : LineMap) : LogFolder :=
  { folder with
    maps := (name, map) :: folder.maps.filter fun entry => entry.1 != name }

/-- Read the lines that `pick` chooses from the given contents of a file. -/
def readContents (folder : LogFolder) (name : String)
    (contents : Option (List UInt8)) (pick : Nat → LineRange × Bool) :
    Except ReadError Message × LogFolder :=
  match contents with
  | none => (.error (.unknownFile name), folder)
  | some data =>
      let (result, map) := readLines name (folder.mapOf name) data pick
      (result, folder.setMap name map)

def answer (folder : LogFolder) (contents : Option (List UInt8))
    (request : Request) : Except ReadError Message × LogFolder :=
  folder.readContents request.file.name contents fun total =>
    LineRange.select total request.edge request.anchor request.limit

/-- Read at most `limit` records after a position, from the start without
one. -/
def readAfter (folder : LogFolder) (contents : Option (List UInt8))
    (name : String) (position : Option Nat) (limit : Nat) :
    Except ReadError Message × LogFolder :=
  folder.readContents name contents fun total =>
    LineRange.select total .newer position limit

/-- Answer a request from the files as they are, unless it was cancelled. -/
def fetch (folder : LogFolder) (files : FileSystem) (request : Request)
    (cancelled : Bool) : Except ReadError Message × LogFolder :=
  if cancelled then (.error .cancelled, folder)
  else folder.answer (folder.contents? files request.file.name) request

end LogFolder
end LogPager
