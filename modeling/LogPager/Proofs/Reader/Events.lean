import LogPager.Session.LiveTail

/-!
# A reader of growing files

The files of a folder grow while a session shows one of them.  Requests are
answered from the files as they are at that moment, and the replies may be
delivered at any later time, in any order and repeatedly.  A live tail reads on
after the newest record, and the files may grow between its reads.
-/

namespace LogPager

namespace LogFolder

/-- Every log file that is there keeps its bytes and may get more after
them. -/
def Grows (folder : LogFolder) (before after : FileSystem) : Prop :=
  ∀ name bytes, folder.contents? before name = some bytes →
    ∃ more, folder.contents? after name = some (bytes ++ more)

/-- Each of some later states of the files has grown from the one before. -/
def GrowsThrough (folder : LogFolder) : FileSystem → List FileSystem → Prop
  | _, [] => True
  | files, next :: later =>
      folder.Grows files next ∧ folder.GrowsThrough next later

/-- The bytes of a log file; a missing one has none. -/
def bytesOf (folder : LogFolder) (files : FileSystem) (name : String) :
    List UInt8 :=
  (folder.contents? files name).getD []

end LogFolder

/-- A folder with its files and the states they go through while it is
read. -/
structure GrowingFolder where
  folder : LogFolder
  files : FileSystem
  later : List FileSystem := []

namespace GrowingFolder

/-- The files become those of the next state, if there is one. -/
def advance (source : GrowingFolder) : GrowingFolder :=
  match source.later with
  | [] => source
  | next :: later => { source with files := next, later }

/-- Let the files grow and read on after a position. -/
def readAfter (live : LiveTail) (source : GrowingFolder)
    (position : Option Nat) : Except ReadError Message × GrowingFolder :=
  let source := source.advance
  let (result, folder) :=
    source.folder.readAfter
      (source.folder.contents? source.files live.file.name) live.file.name
      position live.batch
  (result, { source with folder })

end GrowingFolder

/-- A session over a folder of logs, with all replies computed so far. -/
structure Reader where
  files : FileSystem
  folder : LogFolder
  session : Session
  replies : List Reply := []

namespace Reader

/-- What can happen to a reader. -/
inductive Event where
  | grow (files : FileSystem)
  | openFile (file : FileRef)
  | close
  | requestMore (edge : Edge)
  /-- A request is answered from the files as they are now. -/
  | answer (request : Request) (cancelled : Bool)
  | deliver (reply : Reply)
  /-- A live tail catches up in at most some reads, and before each of them
  the files go on to the next of some later states. -/
  | catchUp (live : LiveTail) (reads : Nat) (later : List FileSystem)

/-- A reader of a folder before anything is opened. -/
def start (files : FileSystem) (path : String) (fetchLimit : Nat)
    (bound : Option Nat) : Reader :=
  { files, folder := { path }, session := .new fetchLimit bound }

/-- The bytes of a log file now. -/
def bytesOf (reader : Reader) (name : String) : List UInt8 :=
  reader.folder.bytesOf reader.files name

/-- Files only grow, requests are answered after they were made, and replies
are delivered after they were computed. -/
def Allows (reader : Reader) : Event → Prop
  | .grow files => reader.folder.Grows reader.files files
  | .answer request _ => request ∈ reader.session.sent
  | .deliver reply => reply ∈ reader.replies
  | .catchUp _ _ later => reader.folder.GrowsThrough reader.files later
  | .openFile _ | .close | .requestMore _ => True

/-- What an event reports, which is nothing moved for those without a report,
and the reader after it. -/
def step (reader : Reader) : Event → Except SessionError Movement × Reader
  | .grow files => (.ok {}, { reader with files })
  | .openFile file =>
      (.ok {}, { reader with session := (reader.session.openFile file).2 })
  | .close => (.ok {}, { reader with session := reader.session.close })
  | .requestMore edge =>
      (.ok {}, { reader with session := (reader.session.requestMore edge).2 })
  | .answer request cancelled =>
      let (result, folder) :=
        reader.folder.fetch reader.files request cancelled
      (.ok {}, { reader with
        folder
        replies := reader.replies ++ [{ request, result }] })
  | .deliver reply =>
      let (outcome, session) := reader.session.deliver reply
      (outcome, { reader with session })
  | .catchUp live reads later =>
      let (outcome, source, session) :=
        reader.session.catchUp (GrowingFolder.readAfter live) live.batch reads
          { folder := reader.folder, files := reader.files, later } {}
      (outcome.getD (.ok {}), { reader with
        files := source.files
        folder := source.folder
        session })

/-- The readers that allowed events lead to. -/
inductive Reached (path : String) (fetchLimit : Nat) (bound : Option Nat) :
    Reader → Prop where
  | start (files : FileSystem) :
      Reached path fetchLimit bound (start files path fetchLimit bound)
  | step {reader : Reader} {event : Event}
      (reached : Reached path fetchLimit bound reader)
      (allowed : reader.Allows event) :
      Reached path fetchLimit bound (reader.step event).2

end Reader
end LogPager
