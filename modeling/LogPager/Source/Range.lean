import LogPager.Edge

/-!
# Which lines a request covers

A request names an edge, an anchor and a limit.  From the number of lines in
the file follow the lines it covers and whether they touch the end of the file
in the asked direction.
-/

namespace LogPager

/-- The lines from `start` up to but not including `stop`. -/
structure LineRange where
  start : Nat
  stop : Nat
deriving DecidableEq, Repr

namespace LineRange

/-- The lines of a range, in order. -/
def toList (range : LineRange) : List Nat :=
  List.range' range.start (range.stop - range.start)

/-- Both ends with two points between them. -/
def display (range : LineRange) : String :=
  toString range.start ++ ".." ++ toString range.stop

/-- The lines asked for in a file of `total` lines, and whether they touch the
end of the file in that direction. -/
def select (total : Nat) (edge : Edge) (anchor : Option Nat) (limit : Nat) :
    LineRange × Bool :=
  match edge with
  | .older =>
      let stop := min (anchor.getD total) total
      let start := stop - limit
      ({ start, stop }, start == 0)
  | .newer =>
      let start := min (anchor.elim 0 (· + 1)) total
      let stop := min (start + limit) total
      ({ start, stop }, stop == total)

end LineRange
end LogPager
