import LogPager.Window.Basic

/-!
# Snapshots of a window

A snapshot shows a window at one moment.  It shares the blocks and reads
single records and the newest records without touching the others.
-/

namespace LogPager

/-- The content of a window at one moment. -/
structure Snapshot where
  blocks : List Block
  length : Nat
  view : View
deriving DecidableEq, Repr

def Window.snapshot (window : Window) : Snapshot :=
  { blocks := window.shown, length := window.length, view := window.view }

namespace Snapshot

def isEmpty (snapshot : Snapshot) : Bool :=
  snapshot.length == 0

def records (snapshot : Snapshot) : List Record :=
  snapshot.blocks.flatten

def positions (snapshot : Snapshot) : List Nat :=
  snapshot.records.map (·.position)

/-- The record at an index, found by walking over whole blocks. -/
def recordAt? : List Block → Nat → Option Record
  | [], _ => none
  | block :: rest, index =>
      if index < block.length then block[index]?
      else recordAt? rest (index - block.length)

/-- The record at an index, where the oldest has index zero. -/
def get? (snapshot : Snapshot) (index : Nat) : Option Record :=
  recordAt? snapshot.blocks index

/-- The blocks, newest first, that hold the last `count` records, oldest
first, with only the wanted end of the last one. -/
def newestBlocks (wanted : List Block) : Nat → List Block → List Block
  | 0, _ => wanted
  | _, [] => wanted
  | count + 1, block :: older =>
      if block.length ≤ count + 1 then
        newestBlocks (block :: wanted) (count + 1 - block.length) older
      else block.drop (block.length - (count + 1)) :: wanted

/-- The last `count` records, oldest first. -/
def tail (snapshot : Snapshot) (count : Nat) : List Record :=
  (newestBlocks [] (min count snapshot.length) snapshot.blocks.reverse).flatten

end Snapshot
end LogPager
