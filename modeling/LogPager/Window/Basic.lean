import LogPager.Page
import LogPager.View

/-!
# Windows onto a log file

A window holds records in blocks, oldest first, with the number of records
beside them.  Pages are joined and records dropped at the two edges only.
-/

namespace LogPager

/-- A run of records that is kept together. -/
abbrev Block := List Record

/-- The held part of one open file. -/
structure Window where
  /-- Oldest block first; none is empty. -/
  blocks : List Block := []
  /-- The blocks as snapshots share them, taken anew whenever they change. -/
  shown : List Block := []
  /-- Records in all blocks. -/
  length : Nat := 0
  /-- Whether the file has nothing beyond the edge. -/
  reached : PerEdge Bool := .both false
  versions : Versions := .both 0
deriving DecidableEq, Repr

namespace Window

/-- Records join the block at their edge while the two together have at most
this many, so that single records do not become a block each. -/
def blockBound : Nat := 64

/-- All held records, oldest first. -/
def records (window : Window) : List Record :=
  window.blocks.flatten

def isEmpty (window : Window) : Bool :=
  window.length == 0

/-- Position of the record held at an edge. -/
def edge? (window : Window) : Edge → Option Nat
  | .older => (window.blocks.head?.bind List.head?).map (·.position)
  | .newer => (window.blocks.getLast?.bind List.getLast?).map (·.position)

def view (window : Window) : View :=
  { versions := window.versions, reached := window.reached }

/-- A window that replaces one with the given versions: a viewer of the old
one sees both edges change. -/
def continuing (versions : Versions) : Window :=
  { versions := versions.bumpBoth }

def setReached (window : Window) (edge : Edge) (reached : Bool) : Window :=
  { window with reached := window.reached.set edge reached }

def bump (window : Window) (edge : Edge) : Window :=
  { window with versions := window.versions.bump edge }

def bumpBoth (window : Window) : Window :=
  { window with versions := window.versions.bumpBoth }

/-- Put records before all blocks. -/
def joinFront (records : Block) : List Block → List Block
  | [] => [records]
  | block :: rest =>
      if block.length + records.length ≤ blockBound then
        (records ++ block) :: rest
      else records :: block :: rest

/-- Put records after all blocks. -/
def joinBack (records : Block) (blocks : List Block) : List Block :=
  match blocks.getLast? with
  | none => [records]
  | some block =>
      if block.length + records.length ≤ blockBound then
        blocks.dropLast ++ [block ++ records]
      else blocks ++ [records]

/-- Put records at an edge of the blocks. -/
def joinBlocks (edge : Edge) (records : Block) (blocks : List Block) :
    List Block :=
  match edge with
  | .older => joinFront records blocks
  | .newer => joinBack records blocks

/-- Let the snapshots to come share the present blocks. -/
def reshow (window : Window) : Window :=
  { window with shown := window.blocks }

/-- Put records at an edge. -/
def joinAt (window : Window) (edge : Edge) (records : Block) : Window :=
  { window with
    length := window.length + records.length
    blocks := joinBlocks edge records window.blocks }.reshow

/-- Join a page that abuts an edge exactly.  An empty page changes nothing,
and an empty window takes every page. -/
def append (window : Window) (page : Page) (edge : Edge) :
    Except SpliceError Window :=
  match page.facing? edge with
  | none => .ok window
  | some received =>
      match window.edge? edge with
      | none => .ok (window.joinAt edge page.records)
      | some held =>
          if edge.abuts held received then
            .ok (window.joinAt edge page.records)
          else .error (.gap edge held received)

/-- Drop records from the front of the blocks: whole blocks while they fit,
then the rest out of the next one. -/
def dropFront : Nat → List Block → List Block
  | 0, blocks => blocks
  | _, [] => []
  | amount + 1, block :: rest =>
      if block.length ≤ amount + 1 then
        dropFront (amount + 1 - block.length) rest
      else block.drop (amount + 1) :: rest

/-- Drop records from the back of blocks that come newest first. -/
def dropNewest : Nat → List Block → List Block
  | 0, blocks => blocks
  | _, [] => []
  | amount + 1, block :: rest =>
      if block.length ≤ amount + 1 then
        dropNewest (amount + 1 - block.length) rest
      else block.take (block.length - (amount + 1)) :: rest

/-- Drop records from an edge of the blocks. -/
def dropAt (edge : Edge) (amount : Nat) (blocks : List Block) : List Block :=
  match edge with
  | .older => dropFront amount blocks
  | .newer => (dropNewest amount blocks.reverse).reverse

/-- Drop up to `amount` records from an edge, and how many were dropped.
Records evicted beyond a reached edge are gone while the file stays open. -/
def evict (window : Window) (edge : Edge) (amount : Nat) : Nat × Window :=
  let removed := min amount window.length
  let blocks := dropAt edge removed window.blocks
  (removed,
    { window with
      blocks
      shown := if 0 < removed then blocks else window.shown
      length := window.length - removed })

end Window
end LogPager
