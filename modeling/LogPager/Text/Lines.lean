/-!
# Lines of a text

A line is what stands before a newline; what follows the last newline is a
line of its own only when it is not empty.
-/

namespace LogPager.Text

/-- Split from the given point on: `line` is the unfinished line and `done`
the finished ones, both newest first. -/
def splitLines (done : List (List Char)) (line : List Char) :
    List Char → List (List Char)
  | [] => (if line.isEmpty then done else line.reverse :: done).reverse
  | character :: rest =>
      if character = '\n' then splitLines (line.reverse :: done) [] rest
      else splitLines done (character :: line) rest

/-- The lines of a text, without their newlines. -/
def lines (text : List Char) : List (List Char) :=
  splitLines [] [] text

end LogPager.Text
