import LogPager.Yaml.Mark

/-!
# Scalars

A scalar is a text, written plainly or between quotes.  Line breaks inside it
are folded: a single one is a blank, and of several all but the first remain.
-/

namespace LogPager.Yaml

/-- A text in a document. -/
structure Scalar where
  place : Place
  /-- Written without quotes. -/
  plain : Bool
  text : String
deriving DecidableEq, Repr

def Scalar.isNull (scalar : Scalar) : Bool :=
  scalar.plain &&
    (scalar.text == "" || scalar.text == "~" ||
      scalar.text.toList.map Char.toLower == "null".toList)

/-- The gap read since the last character of a scalar. -/
inductive Gap where
  /-- Blanks within a line, newest first. -/
  | blanks (characters : List Char)
  /-- Line breaks, and the blanks around them. -/
  | breaks (count : Nat)
deriving DecidableEq, Repr

namespace Gap

/-- A gap of nothing. -/
def empty : Gap := blanks []

def add (gap : Gap) (character : Char) : Gap :=
  match gap with
  | blanks characters =>
      if character = '\n' then breaks 1 else blanks (character :: characters)
  | breaks count => if character = '\n' then breaks (count + 1) else gap

/-- What the gap contributes between two characters, newest first. -/
def folded : Gap → List Char
  | blanks characters => characters
  | breaks count =>
      if count ≤ 1 then [' '] else List.replicate (count - 1) '\n'

def isBroken : Gap → Bool
  | blanks _ => false
  | breaks _ => true

end Gap

/-- Where a scalar stands: inside braces, or under a key at a column. -/
inductive Context where
  | braces
  /-- Lines of the scalar begin beyond the column. -/
  | beyond (column : Nat)
deriving DecidableEq, Repr

def isFlowMark (character : Char) : Bool :=
  character == ',' || character == '[' || character == ']' ||
    character == '\x7b' || character == '\x7d'

/-- Whether what follows a colon makes it the end of a key. -/
def Context.endsKey (context : Context) (rest : List Mark) : Bool :=
  endsHere rest ||
    (context == .braces && (rest.head?.any fun mark => isFlowMark mark.char))

/-- Whether a plain scalar ends before its next character. -/
def Context.endsPlain (context : Context) (gap : Gap) (mark : Mark)
    (rest : List Mark) : Bool :=
  (mark.char == '#' && gap != .empty) ||
  (mark.char == ':' && context.endsKey rest) ||
  match context with
  | .braces => isFlowMark mark.char
  | .beyond column =>
      gap.isBroken &&
        (mark.place.column ≤ column || isDocumentEdge (mark :: rest))

/-- Read a plain scalar from the given point on; `text` is what is read so
far, newest first.  Gives the text and what follows it. -/
def plainText (context : Context) (text : List Char) (gap : Gap) :
    List Mark → List Char × List Mark
  | [] => (text.reverse, [])
  | mark :: rest =>
      if isGap mark.char then
        plainText context text (gap.add mark.char) rest
      else if context.endsPlain gap mark rest then
        (text.reverse, mark :: rest)
      else plainText context (mark.char :: (gap.folded ++ text)) .empty rest

/-- Read the inside of a scalar in single quotes, in which a quote is written
twice. -/
def singleQuoted? (text : List Char) (gap : Gap) :
    List Mark → Option (List Char × List Mark)
  | [] => none
  | mark :: rest =>
      if isGap mark.char then singleQuoted? text (gap.add mark.char) rest
      else
        let text := gap.folded ++ text
        if mark.char ≠ '\'' then singleQuoted? (mark.char :: text) .empty rest
        else
          match rest with
          | next :: rest =>
              if next.char = '\'' then singleQuoted? ('\'' :: text) .empty rest
              else some (text.reverse, next :: rest)
          | [] => some (text.reverse, [])

def escaped? : Char → Option Char
  | '0' => some '\x00'
  | 'a' => some '\x07'
  | 'b' => some '\x08'
  | 't' | '\t' => some '\t'
  | 'n' => some '\n'
  | 'v' => some '\x0b'
  | 'f' => some '\x0c'
  | 'r' => some '\r'
  | 'e' => some '\x1b'
  | ' ' => some ' '
  | '"' => some '"'
  | '/' => some '/'
  | '\\' => some '\\'
  | 'N' => some '\u0085'
  | '_' => some '\u00a0'
  | 'L' => some '\u2028'
  | 'P' => some '\u2029'
  | _ => none

def codeLength : Char → Nat
  | 'x' => 2
  | 'u' => 4
  | 'U' => 8
  | _ => 0

def hexValue? (digit : Char) : Option Nat :=
  if '0' ≤ digit ∧ digit ≤ '9' then some (digit.toNat - '0'.toNat)
  else if 'a' ≤ digit ∧ digit ≤ 'f' then some (digit.toNat - 'a'.toNat + 10)
  else if 'A' ≤ digit ∧ digit ≤ 'F' then some (digit.toNat - 'A'.toNat + 10)
  else none

/-- What is read inside double quotes. -/
inductive QuotedState where
  | text (gap : Gap)
  /-- After a backslash; the gap before it still counts. -/
  | escape
  /-- After a backslash at the end of a line: the break and the blanks that
  begin the next line are dropped. -/
  | continuation
  /-- Inside an escape by code point, with this many digits to come. -/
  | code (value missing : Nat)
deriving DecidableEq, Repr

def doubleQuoted? (text : List Char) (state : QuotedState) :
    List Mark → Option (List Char × List Mark)
  | [] => none
  | mark :: rest =>
      let character := mark.char
      match state with
      | .text gap =>
          if isGap character then
            doubleQuoted? text (.text (gap.add character)) rest
          else
            let text := gap.folded ++ text
            if character = '"' then some (text.reverse, rest)
            else if character = '\\' then doubleQuoted? text .escape rest
            else doubleQuoted? (character :: text) (.text .empty) rest
      | .escape =>
          if character = '\n' then doubleQuoted? text .continuation rest
          else if 0 < codeLength character then
            doubleQuoted? text (.code 0 (codeLength character)) rest
          else
            match escaped? character with
            | some meant => doubleQuoted? (meant :: text) (.text .empty) rest
            | none => none
      | .continuation =>
          if isGap character then doubleQuoted? text .continuation rest
          else if character = '"' then some (text.reverse, rest)
          else if character = '\\' then doubleQuoted? text .escape rest
          else doubleQuoted? (character :: text) (.text .empty) rest
      | .code value missing =>
          match hexValue? character with
          | none => none
          | some digit =>
              let value := 16 * value + digit
              if 1 < missing then
                doubleQuoted? text (.code value (missing - 1)) rest
              else if value.isValidChar then
                doubleQuoted? (Char.ofNat value :: text) (.text .empty) rest
              else none

/-- Characters a plain scalar cannot begin with. -/
def isIndicator (character : Char) : Bool :=
  isFlowMark character || "#&*!|>'\"%@`".toList.contains character

def Context.beginsPlain (context : Context) (mark : Mark) (rest : List Mark) :
    Bool :=
  if mark.char == '-' || mark.char == '?' then !context.endsKey rest
  else !isIndicator mark.char

/-- Pass over the tag and the anchor before a node.  `inside` holds within one
of them. -/
def skipProperties (inside : Bool) : List Mark → List Mark
  | [] => []
  | mark :: rest =>
      if inside then skipProperties (!isGap mark.char) rest
      else if mark.char = '!' || mark.char = '&' then skipProperties true rest
      else if isGap mark.char then skipProperties false rest
      else mark :: rest

/-- What may follow a scalar in quotes that begins in a line: the end of the
line, a comment, the colon of a key, and inside braces what ends an entry.  The
place is that of anything else. -/
def Context.refusedAfterQuotes? (context : Context) (line : Nat)
    (text : List Mark) : Option Place :=
  let gap := text.takeWhile fun mark => isSpace mark.char
  match text.drop gap.length with
  | [] => none
  | mark :: _ =>
      let allowed :=
        if mark.char = '\n' then true
        else if mark.char = '#' then !gap.isEmpty
        else
          match context with
          | .braces => mark.char == ':' || isFlowMark mark.char
          | .beyond _ => mark.char == ':' && mark.place.line == line
      if allowed then none else some mark.place

/-- Read the scalar that begins here.  The error is the place where reading
failed. -/
def readScalar (context : Context) (text : List Mark) :
    Except Place (Scalar × List Mark) :=
  match text with
  | [] => .error {}
  | mark :: rest =>
      let place := mark.place
      let quoted (inside : Option (List Char × List Mark)) :=
        match inside with
        | none => .error place
        | some (text, rest) =>
            match context.refusedAfterQuotes? place.line rest with
            | some refused => .error refused
            | none =>
                .ok ({ place, plain := false, text := String.ofList text }, rest)
      if mark.char = '"' then quoted (doubleQuoted? [] (.text .empty) rest)
      else if mark.char = '\'' then quoted (singleQuoted? [] .empty rest)
      else if context.beginsPlain mark rest then
        let (text, rest) := plainText context [] .empty (mark :: rest)
        .ok ({ place, plain := true, text := String.ofList text }, rest)
      else .error place

end LogPager.Yaml
