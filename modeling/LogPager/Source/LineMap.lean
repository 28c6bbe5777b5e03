import LogPager.Source.Range

/-!
# Where lines begin

A line map knows where every so many lines of a growing file begin and finds
the others by scanning on from there.  Only lines that end in a newline count,
so a line that is still being written is not served.  When the file has become
shorter than the lines seen, the map is made anew.
-/

namespace LogPager

def newline : UInt8 := 0x0A

/-- The beginnings of some lines of a file. -/
structure LineMap where
  /-- Lines between two checkpoints. -/
  interval : Nat
  /-- The checkpoint at index k is where line k * interval begins. -/
  checkpoints : Array Nat
  /-- Complete lines seen. -/
  lines : Nat
  /-- Bytes of the complete lines. -/
  indexedBytes : Nat
deriving DecidableEq, Repr

namespace LineMap

/-- Lines between checkpoints where nothing else is said. -/
def usualInterval : Nat := 1024

/-- The map of an empty file; an interval of zero counts as one. -/
def empty (interval : Nat) : LineMap :=
  { interval := max interval 1
    checkpoints := #[0]
    lines := 0
    indexedBytes := 0 }

/-- Note a line that ends before the given offset. -/
def addLine (map : LineMap) (stop : Nat) : LineMap :=
  let lines := map.lines + 1
  { map with
    lines
    indexedBytes := stop
    checkpoints :=
      if lines % map.interval = 0 then map.checkpoints.push stop
      else map.checkpoints }

/-- Note the lines that end in bytes which begin at an offset. -/
def scan (map : LineMap) (offset : Nat) : List UInt8 → LineMap
  | [] => map
  | byte :: rest =>
      scan (if byte = newline then map.addLine (offset + 1) else map)
        (offset + 1) rest

/-- The map after the file has become `data`. -/
def refresh (map : LineMap) (data : List UInt8) : LineMap :=
  let map := if data.length < map.indexedBytes then empty map.interval else map
  map.scan map.indexedBytes (data.drop map.indexedBytes)

/-- The offset after the `count`-th newline of bytes which begin at an offset,
counted from one. -/
def afterNewline? (offset : Nat) : (count : Nat) → List UInt8 → Option Nat
  | 0, _ => some offset
  | _ + 1, [] => none
  | count + 1, byte :: rest =>
      if byte = newline then afterNewline? (offset + 1) count rest
      else afterNewline? (offset + 1) (count + 1) rest

/-- The offset after `count` more lines from an offset on, within the bytes
before a limit. -/
def skipLines? (data : List UInt8) (start count limit : Nat) : Option Nat :=
  if count = 0 then some start
  else if limit < start || data.length < limit then none
  else afterNewline? start count ((data.take limit).drop start)

def locate? (map : LineMap) (data : List UInt8) (line : Nat) : Option Nat :=
  if line = map.lines then some map.indexedBytes
  else
    map.checkpoints[line / map.interval]?.bind fun checkpoint =>
      skipLines? data checkpoint (line % map.interval) map.indexedBytes

/-- The bytes of a range of lines with their newlines: from where to where.
The data is that of the last refresh, or longer. -/
def byteSpan? (map : LineMap) (data : List UInt8) (range : LineRange) :
    Option (Nat × Nat) :=
  if range.stop < range.start || map.lines < range.stop then none
  else do
    let start ← map.locate? data range.start
    let stop ← skipLines? data start (range.stop - range.start) map.indexedBytes
    return (start, stop)

end LineMap
end LogPager
