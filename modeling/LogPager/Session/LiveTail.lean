import LogPager.Session.Basic
import LogPager.Source.Folder

/-!
# Following a file

Two loops bring a session and a log source together.  Catching up reads the
records after the newest held one in batches and pushes them.  Settling
answers the requests in flight until none is left.  Each is given a number of
rounds; it says when these were not enough.
-/

namespace LogPager
namespace Session

/-- Read after the newest held record and push what comes, batch by batch,
until a batch is short or changes nothing.  The result is none when `reads`
reads were not enough.  The session and the source are those after the last
read in any case. -/
def catchUp (readAfter : σ → Option Nat → Except ReadError Message × σ)
    (batch : Nat) (reads : Nat) (source : σ) (session : Session)
    (total : Movement) :
    Option (Except SessionError Movement) × σ × Session :=
  if !session.view.reached.newer then (some (.ok total), source, session)
  else
    match reads with
    | 0 => (none, source, session)
    | reads + 1 =>
        match readAfter source (session.edge? .newer) with
        | (.error error, source) => (some (.error (.read error)), source, session)
        | (.ok message, source) =>
            match session.push message with
            | (.error error, session) => (some (.error error), source, session)
            | (.ok movement, session) =>
                let total := total.combine movement
                if message.records.length < batch || movement.isNoop then
                  (some (.ok total), source, session)
                else catchUp readAfter batch reads source session total

/-- Requests that were made and wait for an answer, oldest first. -/
def waiting (session : Session) : List Request :=
  session.sent.filter fun request =>
    request.epoch == session.slots.epoch && session.slots.holds request

/-- Answer one request that waits, if there is one. -/
def answerOne (answer : σ → Request → Except ReadError Message × σ)
    (source : σ) (session : Session) :
    Option (Except SessionError Movement × σ × Session) :=
  match session.waiting with
  | [] => none
  | request :: _ =>
      let (result, source) := answer source request
      let (outcome, session) := session.deliver { request, result }
      some (outcome, source, session)

/-- Answer requests until none waits, and what their replies moved.  At most
`rounds` requests are answered. -/
def settle (answer : σ → Request → Except ReadError Message × σ) :
    (rounds : Nat) → σ → Session → Movement → Movement × σ × Session
  | 0, source, session, total => (total, source, session)
  | rounds + 1, source, session, total =>
      match session.answerOne answer source with
      | none => (total, source, session)
      | some (outcome, source, session) =>
          let total := match outcome with
            | .ok movement => total.combine movement
            | .error _ => total
          settle answer rounds source session total

end Session

/-- What the watcher of a file reports. -/
inductive FileEvent where
  | modified
  | failed (cause : String)
deriving DecidableEq, Repr

/-- Turns appended lines of one file into pushed records. -/
structure LiveTail where
  file : FileRef
  /-- The most records read at a time. -/
  batch : Nat
deriving DecidableEq, Repr

namespace LiveTail

/-- A live tail of a file; at least one record is read at a time. -/
def new (file : FileRef) (batch : Nat) : LiveTail :=
  { file, batch := max batch 1 }

/-- Read on after a position in a file that has the given contents. -/
def readStill (live : LiveTail) (contents : Option (List UInt8))
    (folder : LogFolder) (position : Option Nat) :
    Except ReadError Message × LogFolder :=
  folder.readAfter contents live.file.name position live.batch

/-- Reads that catch up with a file: every one but the last brings at least one
of the lines that its map has when it is up to date. -/
def readsFor (live : LiveTail) (contents : Option (List UInt8))
    (folder : LogFolder) : Nat :=
  contents.elim 1 fun data =>
    ((folder.mapOf live.file.name).refresh data).lines + 1

/-- Push all records appended after the newest held one.  The result is none
when the reads were not enough. -/
def catchUp (live : LiveTail) (contents : Option (List UInt8))
    (folder : LogFolder) (session : Session) :
    Option (Except SessionError Movement) × LogFolder × Session :=
  session.catchUp (live.readStill contents) live.batch
    (live.readsFor contents folder) folder {}

/-- Catch up if the watcher reports that the file was modified. -/
def poll (live : LiveTail) (events : List FileEvent)
    (contents : Option (List UInt8)) (folder : LogFolder) (session : Session) :
    Option (Except SessionError Movement) × LogFolder × Session :=
  if events.contains .modified then live.catchUp contents folder session
  else (some (.ok {}), folder, session)

end LiveTail
end LogPager
