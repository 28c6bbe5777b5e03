import LogPager.Severity

/-!
# Log records

A record is one line of a log file.  The file and the position identify it;
its text never does, because equal lines may repeat.
-/

namespace LogPager

/-- A log file as its source names it, with the last point read. -/
structure FileRef where
  name : String
  cursor : String := ""
deriving DecidableEq, Repr, Inhabited

/-- Two references are of one file when the names agree, whatever the cursor. -/
def FileRef.sameFile (left right : FileRef) : Bool :=
  left.name == right.name

/-- One log line. -/
structure Record where
  /-- Index of the line in its file. -/
  position : Nat
  timestamp : String := ""
  severity : Severity := .unknown
  message : String := ""
  /-- Alternating keys and values, in the order of the line. -/
  context : List String := []
deriving DecidableEq, Repr, Inhabited

/-- What identifies a record: its file and its position. -/
structure RecordId where
  file : String
  position : Nat
deriving DecidableEq, Repr

namespace Record

def id (record : Record) (file : String) : RecordId :=
  { file, position := record.position }

/-- Keys and values taken in pairs; a last key without value has an empty
one. -/
def pairUp : List String → List (String × String)
  | key :: value :: rest => (key, value) :: pairUp rest
  | [key] => [(key, "")]
  | [] => []

def contextPairs (record : Record) : List (String × String) :=
  pairUp record.context

end Record
end LogPager
