import LogPager.Request.Basic

/-!
# Request slots

Each edge has one slot, and a request is made only when the slot of its edge
is free.  A reply releases the slot its request holds; replies of requests
that hold no slot change nothing.
-/

namespace LogPager

/-- What can be told about the requests of an edge. -/
inductive SlotStatus where
  | idle
  | pending
  /-- The last request failed; it may be made again. -/
  | failed (error : ReadError)
deriving DecidableEq, Repr

/-- The request that holds a slot. -/
structure Holder where
  id : Nat
  token : CancelToken
deriving DecidableEq, Repr

/-- The slot of one edge. -/
structure Slot where
  holder : Option Holder := none
  status : SlotStatus := .idle
deriving DecidableEq, Repr

/-- The slots of both edges, the file generation, and the flags of all
requests made so far. -/
structure Slots where
  epoch : Nat := 0
  /-- The id of the request made last; ids begin at one. -/
  lastId : Nat := 0
  slots : PerEdge Slot := .both {}
  flags : CancelFlags := {}
deriving DecidableEq, Repr

namespace Slots

def isInFlight (state : Slots) (edge : Edge) : Bool :=
  (state.slots.get edge).holder.isSome

def anyInFlight (state : Slots) : Bool :=
  state.isInFlight .older || state.isInFlight .newer

def status (state : Slots) (edge : Edge) : SlotStatus :=
  (state.slots.get edge).status

def isCancelled (state : Slots) (request : Request) : Bool :=
  state.flags.isCancelled request.token

/-- Make a request, unless one of its edge is in flight or the edge has
reached the end of the file. -/
def issue (state : Slots) (file : FileRef) (edge : Edge)
    (anchor : Option Nat) (limit : Nat) (reached : Bool) :
    Option (Request × Slots) :=
  if reached || state.isInFlight edge then none
  else
    let id := state.lastId + 1
    let (token, flags) := state.flags.newToken
    some (
      { id, epoch := state.epoch, file, edge, anchor, limit, token },
      { state with
        lastId := id
        slots := state.slots.set edge
          { holder := some { id, token }, status := .pending }
        flags })

def holds (state : Slots) (request : Request) : Bool :=
  (state.slots.get request.edge).holder.any (·.id == request.id)

/-- Free the slot that a request holds and leave a status there. -/
def release (state : Slots) (request : Request) (status : SlotStatus) :
    Except StaleReply Slots :=
  if request.epoch ≠ state.epoch then .error .supersededFile
  else if state.holds request then
    .ok { state with
      slots := state.slots.set request.edge { holder := none, status } }
  else .error .unknownRequest

/-- Take a reply to a request.  A reply for an edge that has reached the end
of the file in the meantime frees the slot and is still stale. -/
def accept (state : Slots) (request : Request) (reached : Bool) :
    Except StaleReply Unit × Slots :=
  match state.release request .idle with
  | .error stale => (.error stale, state)
  | .ok state =>
      if reached then (.error (.foreclosedBoundary request.edge), state)
      else (.ok (), state)

def fail (state : Slots) (request : Request) (error : ReadError) :
    Except StaleReply Slots :=
  state.release request (.failed error)

/-- Raise the flag of the request that holds a slot. -/
def cancelHolder (flags : CancelFlags) (slot : Slot) : CancelFlags :=
  match slot.holder with
  | some holder => flags.cancel holder.token
  | none => flags

/-- Cancel the requests in flight and begin a new file generation. -/
def cancelAll (state : Slots) : Slots :=
  { state with
    epoch := state.epoch + 1
    slots := .both {}
    flags := cancelHolder (cancelHolder state.flags state.slots.older)
      state.slots.newer }

end Slots
end LogPager
