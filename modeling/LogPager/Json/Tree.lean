import LogPager.Text.Digits

/-!
# JSON texts as trees

Reading keeps what the grammar says and decides nothing more: a number stays
the digits it was written with, and a string whose escapes name a lone
surrogate is remembered as unreadable.  Nesting is not limited here.
-/

namespace LogPager.Json

/-- A number as it is written. -/
structure NumberLiteral where
  negative : Bool
  whole : List Char
  fraction : Option (List Char)
  /-- Whether the exponent is negative, and its digits. -/
  exponent : Option (Bool × List Char)
deriving DecidableEq, Repr

/-- A JSON text as its grammar divides it.  A string is `none` when an escape
in it is half of a pair. -/
inductive Tree where
  | null
  | bool (value : Bool)
  | number (literal : NumberLiteral)
  | string (text : Option (List Char))
  | array (items : List Tree)
  | object (members : List (Option (List Char) × Tree))

/-- The four characters that may stand between tokens. -/
def isSpace (character : Char) : Bool :=
  character == ' ' || character == '\t' || character == '\n' ||
    character == '\r'

/-- The text without the spaces at its start. -/
def skipSpaces (text : List Char) : List Char :=
  text.dropWhile isSpace

/-- A character of a string, or the number an escape names. -/
inductive StringUnit where
  | plain (character : Char)
  | escaped (code : Nat)
deriving DecidableEq, Repr

def hexValue? (character : Char) : Option Nat :=
  if character.isDigit then some (character.toNat - '0'.toNat)
  else if 'a' ≤ character ∧ character ≤ 'f' then
    some (character.toNat - 'a'.toNat + 10)
  else if 'A' ≤ character ∧ character ≤ 'F' then
    some (character.toNat - 'A'.toNat + 10)
  else none

/-- The number of four hexadecimal digits. -/
def hexCode? (first second third fourth : Char) : Option Nat := do
  let first ← hexValue? first
  let second ← hexValue? second
  let third ← hexValue? third
  let fourth ← hexValue? fourth
  return ((first * 16 + second) * 16 + third) * 16 + fourth

def shortEscape? : Char → Option Char
  | '"' => some '"'
  | '\\' => some '\\'
  | '/' => some '/'
  | 'b' => some '\x08'
  | 'f' => some '\x0c'
  | 'n' => some '\n'
  | 'r' => some '\r'
  | 't' => some '\t'
  | _ => none

/-- The inside of a string up to its closing quote, and what follows. -/
def readUnits? : List Char → Option (List StringUnit × List Char)
  | [] => none
  | '"' :: rest => some ([], rest)
  | '\\' :: 'u' :: first :: second :: third :: fourth :: rest => do
      let code ← hexCode? first second third fourth
      let (units, after) ← readUnits? rest
      return (.escaped code :: units, after)
  | '\\' :: letter :: rest => do
      let character ← shortEscape? letter
      let (units, after) ← readUnits? rest
      return (.plain character :: units, after)
  | character :: rest =>
      if character.toNat < 0x20 ∨ character = '\\' then none
      else do
        let (units, after) ← readUnits? rest
        return (.plain character :: units, after)

/-- Codes of the first half of a surrogate pair. -/
def isHighSurrogate (code : Nat) : Bool :=
  0xD800 ≤ code && code < 0xDC00

def isLowSurrogate (code : Nat) : Bool :=
  0xDC00 ≤ code && code < 0xE000

/-- The text of string units, none when a surrogate is not in a pair. -/
def joinUnits? : List StringUnit → Option (List Char)
  | [] => some []
  | .plain character :: rest => (joinUnits? rest).map (character :: ·)
  | .escaped high :: .escaped low :: rest =>
      if isHighSurrogate high then
        if isLowSurrogate low then
          (joinUnits? rest).map
            (Char.ofNat (0x10000 + (high - 0xD800) * 0x400 + (low - 0xDC00)) :: ·)
        else none
      else if isLowSurrogate high then none
      else (joinUnits? (.escaped low :: rest)).map (Char.ofNat high :: ·)
  | .escaped code :: rest =>
      if isHighSurrogate code || isLowSurrogate code then none
      else (joinUnits? rest).map (Char.ofNat code :: ·)

/-- A string after its opening quote. -/
def readString? (text : List Char) :
    Option (Option (List Char) × List Char) :=
  (readUnits? text).map fun (units, after) => (joinUnits? units, after)

/-- The digits at the start of a text, none if there are none. -/
def readDigitRun? (text : List Char) : Option (List Char × List Char) :=
  match text.takeWhile Char.isDigit with
  | [] => none
  | digits => some (digits, text.dropWhile Char.isDigit)

/-- The digits before the point: a zero alone, or digits not starting with
one. -/
def readWhole? (text : List Char) : Option (List Char × List Char) :=
  match readDigitRun? text with
  | some ('0' :: _ :: _, _) => none
  | found => found

/-- A point and the digits after it, if a point stands there. -/
def readFraction? : List Char → Option (Option (List Char) × List Char)
  | '.' :: rest => (readDigitRun? rest).map fun (digits, after) =>
      (some digits, after)
  | text => some (none, text)

/-- The digits of an exponent after its letter, with their sign. -/
def readExponentDigits? : List Char → Option ((Bool × List Char) × List Char)
  | '-' :: rest => (readDigitRun? rest).map fun (digits, after) =>
      ((true, digits), after)
  | '+' :: rest => (readDigitRun? rest).map fun (digits, after) =>
      ((false, digits), after)
  | text => (readDigitRun? text).map fun (digits, after) =>
      ((false, digits), after)

/-- An exponent, if its letter stands there. -/
def readExponent? (text : List Char) :
    Option (Option (Bool × List Char) × List Char) :=
  match text with
  | 'e' :: rest | 'E' :: rest =>
      (readExponentDigits? rest).map fun (exponent, after) =>
        (some exponent, after)
  | _ => some (none, text)

def readNumber? (text : List Char) : Option (NumberLiteral × List Char) := do
  let (negative, text) := match text with
    | '-' :: rest => (true, rest)
    | _ => (false, text)
  let (whole, text) ← readWhole? text
  let (fraction, text) ← readFraction? text
  let (exponent, text) ← readExponent? text
  return ({ negative, whole, fraction, exponent }, text)

mutual

/-- A value and what follows it; `depth` bounds the recursion and the length
of the text is always enough. -/
def readValue? (depth : Nat) (text : List Char) : Option (Tree × List Char) :=
  match depth with
  | 0 => none
  | depth + 1 =>
      match skipSpaces text with
      | 'n' :: 'u' :: 'l' :: 'l' :: rest => some (.null, rest)
      | 't' :: 'r' :: 'u' :: 'e' :: rest => some (.bool true, rest)
      | 'f' :: 'a' :: 'l' :: 's' :: 'e' :: rest => some (.bool false, rest)
      | '"' :: rest => (readString? rest).map fun (text, after) =>
          (.string text, after)
      | '[' :: rest =>
          match skipSpaces rest with
          | ']' :: after => some (.array [], after)
          | inside => (readItems? depth inside).map fun (items, after) =>
              (.array items, after)
      | '\x7b' :: rest =>
          match skipSpaces rest with
          | '\x7d' :: after => some (.object [], after)
          | inside => (readMembers? depth inside).map fun (members, after) =>
              (.object members, after)
      | other => (readNumber? other).map fun (literal, after) =>
          (.number literal, after)

/-- The items of an array, at least one, up to its closing bracket. -/
def readItems? (depth : Nat) (text : List Char) :
    Option (List Tree × List Char) :=
  match depth with
  | 0 => none
  | depth + 1 => do
      let (item, rest) ← readValue? depth text
      match skipSpaces rest with
      | ']' :: after => return ([item], after)
      | ',' :: more =>
          let (items, after) ← readItems? depth more
          return (item :: items, after)
      | _ => none

/-- The members of an object, at least one, up to its closing brace. -/
def readMembers? (depth : Nat) (text : List Char) :
    Option (List (Option (List Char) × Tree) × List Char) :=
  match depth with
  | 0 => none
  | depth + 1 =>
      match skipSpaces text with
      | '"' :: rest => do
          let (key, rest) ← readString? rest
          match skipSpaces rest with
          | ':' :: rest =>
              let (value, rest) ← readValue? depth rest
              match skipSpaces rest with
              | '\x7d' :: after => return ([(key, value)], after)
              | ',' :: more =>
                  let (members, after) ← readMembers? depth more
                  return ((key, value) :: members, after)
              | _ => none
          | _ => none
      | _ => none

end

/-- The tree of a whole text, which is one value with spaces around it. -/
def Tree.parse? (text : List Char) : Option Tree :=
  match readValue? (text.length + 1) text with
  | some (tree, rest) => if (skipSpaces rest).isEmpty then some tree else none
  | none => none

end LogPager.Json
