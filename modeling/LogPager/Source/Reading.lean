import LogPager.Record.Line
import LogPager.Request.Basic
import LogPager.Source.LineMap
import LogPager.Text.Lines
import LogPager.Text.Utf8

/-!
# Reading records from bytes

Every complete line of a file is a record whose position is the index of the
line.  A read refreshes the line map, picks a range of lines and decodes their
bytes together.
-/

namespace LogPager

/-- A line without the carriage returns at its end. -/
def dropCarriageReturns (line : List Char) : List Char :=
  Text.trimEndWhere (· == '\r') line

/-- The records of bytes that hold the lines at the given positions. -/
def recordsOfBytes (bytes : List UInt8) (positions : List Nat) : List Record :=
  List.zipWith
    (fun line position => Record.ofLine position (dropCarriageReturns line))
    (Text.lines (Text.Utf8.decodeLossy bytes)) positions

/-- Read the lines that `pick` chooses for the number of complete lines.  The
map is refreshed even when the read fails. -/
def readLines (name : String) (map : LineMap) (data : List UInt8)
    (pick : Nat → LineRange × Bool) : Except ReadError Message × LineMap :=
  let map := map.refresh data
  let (range, boundary) := pick map.lines
  match map.byteSpan? data range with
  | none =>
      (.error (.io ("line range " ++ range.display ++ " not indexed")), map)
  | some (start, stop) =>
      let bytes := (data.drop start).take (stop - start)
      (.ok {
        source := some { name, cursor := toString map.indexedBytes }
        records := recordsOfBytes bytes range.toList
        boundary }, map)

end LogPager
