import LogPager.Files.Path
import LogPager.Text.Utf8

/-!
# Files, folders and links

A file system is a tree, together with the text that stands for its top folder
and the folder that relative paths start from.  Looking up a path follows
links.
-/

namespace LogPager

/-- The name of an entry, which is any bytes without a slash. -/
abbrev FileName := List UInt8

/-- An entry of a folder. -/
inductive Node where
  | file (bytes : List UInt8)
  | folder (entries : List (FileName × Node))
  | link (target : String)

namespace Node

def entry? (name : FileName) : Node → Option Node
  | .folder entries => entries.lookup name
  | _ => none

/-- The node under some names; links are not followed. -/
def at? : List FileName → Node → Option Node
  | [], node => some node
  | name :: rest, node => (node.entry? name).bind (at? rest)

def isFile : Node → Bool
  | .file _ => true
  | _ => false

def isFolder : Node → Bool
  | .folder _ => true
  | _ => false

/-- Set an entry: in its place, or at the end. -/
def setEntry (name : FileName) (node : Node) :
    List (FileName × Node) → List (FileName × Node)
  | [] => [(name, node)]
  | entry :: rest =>
      if entry.1 = name then (name, node) :: rest
      else entry :: setEntry name node rest

/-- Put a node under some names; missing folders are made. -/
def put (node : Node) : List FileName → Node → Node
  | [], _ => node
  | name :: rest, .folder entries =>
      let child := (entries.lookup name).getD (.folder [])
      .folder (setEntry name (put node rest child) entries)
  | _ :: _, other => other

end Node

/-- A tree of files and how its paths are written. -/
structure FileSystem where
  /-- The text that stands for the top folder at the start of a path. -/
  top : String := ""
  /-- The top folder, none once it is gone. -/
  root : Option Node := some (.folder [])
  /-- Where relative paths start. -/
  cwd : List FileName := []

/-- The wording of the operating system for a path that leads nowhere. -/
def FileSystem.missingText : String := "No such file or directory (os error 2)"

/-- The wording of the operating system for a folder in place of a file. -/
def FileSystem.folderText : String := "Is a directory (os error 21)"

/-- The most links that are followed for one path. -/
def linkBound : Nat := 40

namespace FileSystem

/-- Where a path starts, given the folder of relative paths, and the names
that lead on from there.  None for an empty path and for one that begins
outside the tree. -/
def start? (files : FileSystem) (here : List FileName) (path : String) :
    Option (List FileName × List FileName) :=
  let encoded (text : List Char) : List FileName :=
    (Path.names text).map fun name => Text.Utf8.encode (String.ofList name)
  let text := path.toList
  let top := files.top.toList
  if text.isEmpty then none
  else if top.isPrefixOf text &&
      ((text.drop top.length).head?.getD '/') == '/' then
    some ([], encoded (text.drop top.length))
  else if text.head? = some '/' then none
  else some (here, encoded text)

/-- Follow names from a folder on, and the links among them.  Gives the names
from the top to what is there. -/
def walk (files : FileSystem) (root : Node) (links : Nat)
    (here names : List FileName) : Option (List FileName) :=
  match names with
  | [] => some here
  | name :: rest =>
      match root.at? here with
      | some (.folder entries) =>
          if name = [0x2E] then files.walk root links here rest
          else if name = [0x2E, 0x2E] then
            files.walk root links here.dropLast rest
          else
            match entries.lookup name with
            | none => none
            | some (.link target) =>
                if _followed : 0 < links then
                  match files.start? here target with
                  | none => none
                  | some (here, names) =>
                      files.walk root (links - 1) here (names ++ rest)
                else none
            | some _ => files.walk root links (here ++ [name]) rest
      | _ => none
termination_by (links, names.length)

def find? (files : FileSystem) (path : String) : Option (List FileName) := do
  let root ← files.root
  let (here, names) ← files.start? files.cwd path
  files.walk root linkBound here names

/-- The folder that relative paths start from, as a path from the top. -/
def here (files : FileSystem) : String :=
  files.cwd.foldl
    (fun path name => path ++ "/" ++ String.ofList (Text.Utf8.decodeLossy name))
    files.top

def node? (files : FileSystem) (path : String) : Option Node := do
  let root ← files.root
  let found ← files.find? path
  root.at? found

def isFile (files : FileSystem) (path : String) : Bool :=
  (files.node? path).any (·.isFile)

def isFolder (files : FileSystem) (path : String) : Bool :=
  (files.node? path).any (·.isFolder)

def bytes? (files : FileSystem) (path : String) : Option (List UInt8) :=
  match files.node? path with
  | some (.file bytes) => some bytes
  | _ => none

def entries? (files : FileSystem) (path : String) :
    Option (List (FileName × Node)) :=
  match files.node? path with
  | some (.folder entries) => some entries
  | _ => none

/-- The names of a path from the top, links not followed. -/
def placeOf? (files : FileSystem) (path : String) : Option (List FileName) :=
  (files.start? files.cwd path).map fun (here, names) => here ++ names

/-- Put a node where a path leads, or where it would lead. -/
def put (files : FileSystem) (path : String) (node : Node) : FileSystem :=
  match (files.find? path).or (files.placeOf? path) with
  | some place => { files with root := files.root.map (Node.put node place) }
  | none => files

/-- Make a folder, unless something is there. -/
def makeFolder (files : FileSystem) (path : String) : FileSystem :=
  match files.node? path with
  | some _ => files
  | none => files.put path (.folder [])

end FileSystem
end LogPager
