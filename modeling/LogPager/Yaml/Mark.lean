/-!
# Characters with their places

A text is read as characters that each know their line and column, so that
everything found in it can be reported where it stands.
-/

namespace LogPager.Yaml

/-- A place in a text; lines and columns are counted from one. -/
structure Place where
  line : Nat := 1
  column : Nat := 1
deriving DecidableEq, Repr, Inhabited

/-- A character and its place. -/
structure Mark where
  char : Char
  place : Place
deriving DecidableEq, Repr

def marksFrom (place : Place) : List Char → List Mark
  | [] => []
  | character :: rest =>
      let next : Place :=
        if character = '\n' then { line := place.line + 1, column := 1 }
        else { place with column := place.column + 1 }
      { char := character, place } :: marksFrom next rest

/-- The text with a newline for every line break. -/
def unifyBreaks : List Char → List Char
  | [] => []
  | '\r' :: '\n' :: rest => '\n' :: unifyBreaks rest
  | '\r' :: rest => '\n' :: unifyBreaks rest
  | character :: rest => character :: unifyBreaks rest

/-- The text without the byte order mark at its start. -/
def dropByteOrderMark : List Char → List Char
  | '\uFEFF' :: rest => rest
  | text => text

/-- The characters of a document.  A last newline is added, so that every
document ends with a line break, whose place is the end of the text. -/
def marks (text : String) : List Mark :=
  marksFrom {} (unifyBreaks (dropByteOrderMark text.toList) ++ ['\n'])

/-- Blanks within a line. -/
def isSpace (character : Char) : Bool :=
  character == ' ' || character == '\t'

/-- Blanks and line breaks. -/
def isGap (character : Char) : Bool :=
  isSpace character || character == '\n'

def endsHere : List Mark → Bool
  | [] => true
  | mark :: _ => isGap mark.char

/-- Pass over gaps and comments. -/
def skipGaps (inComment : Bool) : List Mark → List Mark
  | [] => []
  | mark :: rest =>
      if inComment then skipGaps (mark.char != '\n') rest
      else if isGap mark.char then skipGaps false rest
      else if mark.char = '#' then skipGaps true rest
      else mark :: rest

/-- The next character that is neither in a gap nor in a comment, and what
comes with it. -/
def nextContent (text : List Mark) : List Mark :=
  skipGaps false text

/-- Whether a line that separates documents begins here: three times the
character in the first columns, and a gap. -/
def isSeparator (character : Char) : List Mark → Bool
  | first :: second :: third :: rest =>
      first.place.column == 1 && first.char == character &&
        second.char == character && third.char == character && endsHere rest
  | _ => false

def isDocumentEdge (text : List Mark) : Bool :=
  isSeparator '-' text || isSeparator '.' text

end LogPager.Yaml
