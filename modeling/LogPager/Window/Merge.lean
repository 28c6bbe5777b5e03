import LogPager.Window.Basic

/-!
# Merging pages into a window

Overlap is resolved by position: what is already held stays.  Every merge
counts the records that moved at each edge, so that a viewport can follow
them, and bumps the version of an edge it changed.
-/

namespace LogPager

/-- Records added and dropped at each edge. -/
structure Movement where
  added : PerEdge Nat := .both 0
  evicted : PerEdge Nat := .both 0
deriving DecidableEq, Repr

namespace Movement

def changed (movement : Movement) (edge : Edge) : Bool :=
  0 < movement.added.get edge || 0 < movement.evicted.get edge

def isNoop (movement : Movement) : Bool :=
  !movement.changed .older && !movement.changed .newer

def redraw (movement : Movement) : Redraw :=
  .ofFlags (movement.changed .older) (movement.changed .newer)

/-- By how much the index of a record grows that is held before and after. -/
def indexShift (movement : Movement) : Int :=
  (movement.added.older : Int) - movement.evicted.older

/-- Both movements, one after the other. -/
def combine (first second : Movement) : Movement :=
  { added := .zipWith (· + ·) first.added second.added
    evicted := .zipWith (· + ·) first.evicted second.evicted }

def add (movement : Movement) (edge : Edge) (count : Nat) : Movement :=
  { movement with added := movement.added.modify edge (· + count) }

def evict (movement : Movement) (edge : Edge) (count : Nat) : Movement :=
  { movement with evicted := movement.evicted.modify edge (· + count) }

end Movement

/-- What the request for a page said. -/
structure Fetched where
  edge : Edge
  /-- The most records the request asked for. -/
  limit : Nat
  /-- The source has nothing beyond the page. -/
  boundary : Bool := false
  /-- The request read from the far end of the file. -/
  unanchored : Bool := false
deriving DecidableEq, Repr

namespace Window

/-- Join a page to a window that holds records: the part beyond the held edge
is appended.  Gives how many records were added. -/
def splice (window : Window) (page : Page) (edge : Edge) :
    Except SpliceError (Nat × Window) :=
  match page.facing? edge, window.edge? edge with
  | some received, some held =>
      if edge.leavesGap held received then .error (.gap edge held received)
      else
        let beyond := page.keepBeyond edge held
        (window.append beyond edge).map fun window => (beyond.length, window)
  | _, _ => .ok (0, window)

/-- Join a page to a window without records. -/
def fill (window : Window) (page : Page) (edge : Edge) :
    Except SpliceError (Nat × Window) :=
  (window.append page edge).map fun window => (page.length, window)

/-- The flags after a page of `received` records.  An empty page without a
boundary says nothing; a page shorter than asked, or marked as boundary,
reaches the edge; and the first page read from an end of the file reaches that
end. -/
def noteBoundary (window : Window) (fetched : Fetched) (wasEmpty : Bool)
    (received : Nat) : Window :=
  if fetched.boundary || 0 < received then
    let window :=
      if fetched.boundary || received < fetched.limit then
        window.setReached fetched.edge true
      else window
    if fetched.unanchored && wasEmpty then
      window.setReached fetched.edge.opposite true
    else window
  else window

/-- Merge a fetched page. -/
def mergeFetched (window : Window) (page : Page) (fetched : Fetched) :
    Except SpliceError (Movement × Window) := do
  let edge := fetched.edge
  if window.isEmpty then
    let (added, filled) ← window.fill page edge
    let filled := if 0 < added then filled.bumpBoth else filled
    return (Movement.add {} edge added,
      filled.noteBoundary fetched true page.length)
  else
    let (added, grown) ← window.splice page edge
    let grown := if 0 < added then grown.bump edge else grown
    return (Movement.add {} edge added,
      grown.noteBoundary fetched false page.length)

/-- Merge a page that was pushed, not asked for.  It applies only while the
live end of the file is held. -/
def mergeLive (window : Window) (page : Page) :
    Except SpliceError (Movement × Window) := do
  if !window.reached.newer || page.isEmpty then return ({}, window)
  let (added, grown) ←
    if window.isEmpty then window.fill page .newer
    else window.splice page .newer
  let grown := if 0 < added then grown.bump .newer else grown
  return (Movement.add {} .newer added, grown)

/-- Whether the window holds as many records as the bound allows. -/
def isFull (window : Window) (bound : Option Nat) : Bool :=
  bound.any (· ≤ window.length)

/-- The edge that gives way when a window grew at an edge: the opposite one,
but never a held live end. -/
def yieldingEdge (window : Window) (grown : Edge) : Edge :=
  if window.reached.newer then .older else grown.opposite

/-- Drop records until the window fits the bound, unless a request is in
flight at the edge that would give way. -/
def enforceBound (bound : Option Nat) (window : Window) (grown : Edge)
    (inFlight : Edge → Bool) (movement : Movement) : Movement × Window :=
  match bound with
  | none => (movement, window)
  | some most =>
      let edge := window.yieldingEdge grown
      if window.length ≤ most || inFlight edge then (movement, window)
      else
        let (removed, window) := window.evict edge (window.length - most)
        if 0 < removed then (movement.evict edge removed, window.bump edge)
        else (movement, window)

end Window
end LogPager
