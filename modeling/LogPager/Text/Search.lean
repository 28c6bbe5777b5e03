/-!
# Searching in a text

A pattern is a function that reads the start of a text.  A search applies it
to every end of the text, the longest first.
-/

namespace LogPager.Text

/-- What a pattern reads at the first place where it reads anything. -/
def firstMatch? (pattern? : List Char → Option α) : List Char → Option α
  | [] => pattern? []
  | character :: rest =>
      (pattern? (character :: rest)).or (firstMatch? pattern? rest)

/-- What follows the given word at the start of a text. -/
def dropWord? : (word text : List Char) → Option (List Char)
  | [], text => some text
  | _ :: _, [] => none
  | expected :: word, character :: text =>
      if expected = character then dropWord? word text else none

end LogPager.Text
