import LogPager.Broadcast
import LogPager.Request.Slots
import LogPager.Window.Edit
import LogPager.Window.Snapshot

/-!
# Sessions

A session shows one log file at a time.  It owns the window of the open file
and is the only one that changes it: replies to its requests and pushed
messages are checked, merged in place, and the new view is published.  The
requests it makes are kept as a list, from which a transport takes them.
-/

namespace LogPager

/-- Why a session refused a message. -/
inductive SessionError where
  | splice (error : SpliceError)
  | stale (error : StaleReply)
  | read (error : ReadError)
deriving DecidableEq, Repr

def SessionError.message : SessionError → String
  | .splice error => error.message
  | .stale error => "stale response dropped: " ++ error.message
  | .read error => error.message

/-- The open file and its window. -/
structure OpenLog where
  file : FileRef
  window : Window := {}
deriving DecidableEq, Repr

/-- The state of one viewer. -/
structure Session where
  /-- The records asked for at a time. -/
  fetchLimit : Nat
  /-- The most records held. -/
  bound : Option Nat
  slots : Slots := {}
  broadcast : Broadcast := {}
  opened : Option OpenLog := none
  /-- Versions of the window that was closed or replaced last. -/
  retired : Versions := .both 0
  /-- All requests made, oldest first. -/
  sent : List Request := []
deriving DecidableEq, Repr

namespace Session

/-- A session without an open file.  At least one record is asked for at a
time. -/
def new (fetchLimit : Nat) (bound : Option Nat) : Session :=
  { fetchLimit := max fetchLimit 1, bound }

def file (session : Session) : Option FileRef :=
  session.opened.map (·.file)

def snapshot (session : Session) : Option Snapshot :=
  session.opened.map (·.window.snapshot)

/-- How many records are held. -/
def held (session : Session) : Nat :=
  session.opened.elim 0 (·.window.length)

def edge? (session : Session) (edge : Edge) : Option Nat :=
  session.opened.bind (·.window.edge? edge)

/-- What a viewer reads.  Without an open file it is the versions left by the
last one. -/
def view (session : Session) : View :=
  match session.opened with
  | some log => log.window.view
  | none => { versions := session.retired }

def hasPending (session : Session) : Bool :=
  session.slots.anyInFlight

def publish (session : Session) : Session :=
  { session with broadcast := session.broadcast.publish session.view }

/-- Add a subscriber, and its number. -/
def subscribe (session : Session) : Nat × Session :=
  let (subscriber, broadcast) := session.broadcast.subscribe
  (subscriber, { session with broadcast })

def unsubscribe (session : Session) (subscriber : Nat) : Session :=
  { session with broadcast := session.broadcast.unsubscribe subscriber }

/-- The views a subscriber was sent since it last took them. -/
def take (session : Session) (subscriber : Nat) :
    Option (List View) × Session :=
  let (views, broadcast) := session.broadcast.take subscriber
  (views, { session with broadcast })

/-- Give up the window and remember its versions. -/
def retire (session : Session) : Session :=
  { session with
    opened := none
    retired := session.view.versions }

/-- What a request for more records at an edge would be: its edge, its anchor,
and whether the edge has reached the end of the file.  None when there is
nothing to ask for.  While the window is empty the request is the first read
from the live end, one at a time; a full window that holds the live end asks
for no older records. -/
def target? (session : Session) (window : Window) (edge : Edge) :
    Option (Edge × Option Nat × Bool) :=
  if window.isEmpty then
    if session.slots.anyInFlight then none
    else some (.older, none, window.reached.older)
  else if edge == .older && window.reached.newer &&
      window.isFull session.bound then none
  else some (edge, window.edge? edge, window.reached.get edge)

/-- Ask for more records at an edge, and whether a request was made. -/
def requestMore (session : Session) (edge : Edge) : Bool × Session :=
  match session.opened with
  | none => (false, session)
  | some log =>
      match session.target? log.window edge with
      | none => (false, session)
      | some (edge, anchor, reached) =>
          match session.slots.issue log.file edge anchor session.fetchLimit
              reached with
          | none => (false, session)
          | some (request, slots) =>
              (true, { session with slots, sent := session.sent ++ [request] })

/-- Open a file in place of whatever was open and ask for its last records.
Requests of the file before are cancelled. -/
def openFile (session : Session) (file : FileRef) : Bool × Session :=
  let session := { session with slots := session.slots.cancelAll }.retire
  let session :=
    { session with
      opened := some { file, window := .continuing session.retired } }
  session.publish.requestMore .older

/-- Close the open file and cancel its requests. -/
def close (session : Session) : Session :=
  ({ session with slots := session.slots.cancelAll }.retire).publish

/-- Keep the bound after the window grew at an edge, put the window back, and
publish the view. -/
def settleWindow (session : Session) (log : OpenLog) (grown : Edge)
    (movement : Movement) : Movement × Session :=
  let (movement, window) :=
    log.window.enforceBound session.bound grown session.slots.isInFlight movement
  (movement,
    { session with opened := some { log with window } }.publish)

/-- Merge the records of a reply whose request held its slot. -/
def mergeReply (session : Session) (log : OpenLog) (request : Request)
    (source : FileRef) (message : Message) :
    Except SessionError Movement × Session :=
  let fetched : Fetched :=
    { edge := request.edge
      limit := request.limit
      boundary := message.boundary
      unanchored := request.anchor.isNone }
  let merge : Window.Edit Movement := do
    let page ← Page.ofRecords source.name message.records
    Window.Edit.mergeFetched page fetched
  match merge.apply log.window with
  | (.ok movement, window) =>
      let file := { log.file with cursor := source.cursor }
      let (movement, session) :=
        session.settleWindow { file, window } request.edge movement
      (.ok movement, session)
  | (.error error, window) =>
      let session := { session with opened := some { log with window } }
      match error with
      | .gap .. => (.error (.splice error), (session.requestMore request.edge).2)
      | .unordered .. => (.error (.splice error), session)

/-- Take a reply to a request.  A reply whose request does not hold its slot
is dropped and changes nothing.  After a gap the missing records are asked for
again. -/
def deliver (session : Session) (reply : Reply) :
    Except SessionError Movement × Session :=
  let request := reply.request
  match session.opened with
  | none => (.error (.stale .closed), session)
  | some log =>
      if !request.file.sameFile log.file then
        (.error (.stale .supersededFile), session)
      else
        match reply.result with
        | .error error =>
            match session.slots.fail request error with
            | .error stale => (.error (.stale stale), session)
            | .ok slots => (.error (.read error), { session with slots })
        | .ok message =>
            match session.slots.accept request
                (log.window.reached.get request.edge) with
            | (.error stale, slots) =>
                (.error (.stale stale), { session with slots })
            | (.ok (), slots) =>
                let session := { session with slots }
                match message.source with
                | none => (.ok {}, session)
                | some source =>
                    if source.sameFile log.file then
                      session.mergeReply log request source message
                    else (.error (.stale .supersededFile), session)

/-- Take a message that was pushed, not asked for.  It applies only while the
live end of the file is held. -/
def push (session : Session) (message : Message) :
    Except SessionError Movement × Session :=
  match session.opened with
  | none => (.error (.stale .closed), session)
  | some log =>
      if message.source.any fun source => !source.sameFile log.file then
        (.error (.stale .supersededFile), session)
      else if !log.window.reached.newer then (.ok {}, session)
      else
        let merge : Window.Edit Movement := do
          let page ← Page.ofRecords log.file.name message.records
          Window.Edit.mergeLive page
        match merge.apply log.window with
        | (.ok movement, window) =>
            let cursor := message.source.elim log.file.cursor (·.cursor)
            let (movement, session) :=
              session.settleWindow { file := { log.file with cursor }, window }
                .newer movement
            (.ok movement, session)
        | (.error error, window) =>
            (.error (.splice error),
              { session with opened := some { log with window } })

/-- Take replies in turn; the movements of those that were merged are
combined. -/
def deliverAll (session : Session) (replies : List Reply) :
    Movement × Session :=
  replies.foldl
    (fun (total, session) reply =>
      match session.deliver reply with
      | (.ok movement, session) => (total.combine movement, session)
      | (.error _, session) => (total, session))
    ({}, session)

end Session
end LogPager
