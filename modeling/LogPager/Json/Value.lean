import LogPager.Decimal.Reading
import LogPager.Decimal.Shortest
import LogPager.Json.Tree

/-!
# JSON values and their compact text

A tree denotes a value when its strings are readable and its numbers are
finite.  A key that repeats keeps the place of its first member and the value
of its last.  The compact text of a value has no spaces and escapes only what
must be escaped.
-/

namespace LogPager.Json

/-- A JSON value.  Whole numbers that fit 64 bits are kept exactly. -/
inductive Value where
  | null
  | bool (value : Bool)
  | integer (value : Int)
  | double (value : Float)
  | string (text : List Char)
  | array (items : List Value)
  | object (members : List (List Char × Value))

/-- Set a key: in the place of its member, or at the end. -/
def setMember (key : List Char) (value : Value) :
    List (List Char × Value) → List (List Char × Value)
  | [] => [(key, value)]
  | member :: rest =>
      if member.1 = key then (key, value) :: rest
      else member :: setMember key value rest

/-- Members after each has been set in turn. -/
def mergeMembers (members : List (List Char × Value)) :
    List (List Char × Value) :=
  members.foldl (fun merged member => setMember member.1 member.2 merged) []

def digitsValue (digits : List Char) : Nat :=
  digits.foldl (fun total digit => 10 * total + (digit.toNat - '0'.toNat)) 0

def NumberLiteral.exponentValue (literal : NumberLiteral) : Int :=
  match literal.exponent with
  | none => 0
  | some (true, digits) => -(digitsValue digits : Int)
  | some (false, digits) => digitsValue digits

/-- The whole number that a literal without point and exponent spells, when it
fits 64 bits with or without sign.  Negative zero is none. -/
def NumberLiteral.integer? (literal : NumberLiteral) : Option Int :=
  if literal.fraction.isSome || literal.exponent.isSome then none
  else
    let magnitude := digitsValue literal.whole
    if literal.negative then
      if 0 < magnitude ∧ magnitude ≤ Nat.pow 2 63 then some (-(magnitude : Int))
      else none
    else if magnitude < Text.wordBound then some magnitude
    else none

/-- The number a literal denotes, none when it is too large. -/
def NumberLiteral.value? (literal : NumberLiteral) : Option Value :=
  match literal.integer? with
  | some value => some (.integer value)
  | none =>
      (Decimal.read? literal.negative literal.whole
        (literal.fraction.getD []) literal.exponentValue).map .double

mutual

def Value.ofTree? : Tree → Option Value
  | .null => some .null
  | .bool value => some (.bool value)
  | .number literal => literal.value?
  | .string text => text.map .string
  | .array items => (Value.ofItems? items).map .array
  | .object members =>
      (Value.ofMembers? members).map fun members =>
        .object (mergeMembers members)

def Value.ofItems? : List Tree → Option (List Value)
  | [] => some []
  | item :: rest => do
      let value ← Value.ofTree? item
      let values ← Value.ofItems? rest
      return value :: values

/-- The keys and values of the members of an object, repeats included. -/
def Value.ofMembers? :
    List (Option (List Char) × Tree) → Option (List (List Char × Value))
  | [] => some []
  | (key, item) :: rest => do
      let key ← key
      let value ← Value.ofTree? item
      let members ← Value.ofMembers? rest
      return (key, value) :: members

end

mutual

/-- Levels of arrays and objects in a tree. -/
def Tree.nesting : Tree → Nat
  | .array items => Tree.nestingOfItems items + 1
  | .object members => Tree.nestingOfMembers members + 1
  | _ => 0

def Tree.nestingOfItems : List Tree → Nat
  | [] => 0
  | item :: rest => max (Tree.nesting item) (Tree.nestingOfItems rest)

def Tree.nestingOfMembers : List (Option (List Char) × Tree) → Nat
  | [] => 0
  | (_, item) :: rest => max (Tree.nesting item) (Tree.nestingOfMembers rest)

end

/-- The deepest nesting of a value that is read from a text. -/
def nestingBound : Nat := 127

/-- The value of a whole text. -/
def Value.parse? (text : List Char) : Option Value :=
  match Tree.parse? text with
  | none => none
  | some tree =>
      if tree.nesting ≤ nestingBound then Value.ofTree? tree else none

/-- The hexadecimal digit of a number below sixteen, in lowercase. -/
def hexDigit (value : Nat) : Char :=
  if value < 10 then Char.ofNat ('0'.toNat + value)
  else Char.ofNat ('a'.toNat + (value - 10))

/-- A character inside a string. -/
def escapeCharacter (character : Char) : List Char :=
  match character with
  | '"' => ['\\', '"']
  | '\\' => ['\\', '\\']
  | '\x08' => ['\\', 'b']
  | '\x0c' => ['\\', 'f']
  | '\n' => ['\\', 'n']
  | '\r' => ['\\', 'r']
  | '\t' => ['\\', 't']
  | _ =>
      if character.toNat < 0x20 then
        ['\\', 'u', '0', '0', hexDigit (character.toNat / 16),
          hexDigit (character.toNat % 16)]
      else [character]

def quote (text : List Char) : List Char :=
  '"' :: text.flatMap escapeCharacter ++ ['"']

/-- Doubles are written positionally from a hundred-thousandth up to below ten
to the sixteenth. -/
def doubleLayout : Decimal.Layout :=
  { leastPositional := -5, greatestPositional := 15 }

/-- A whole number. -/
def renderInteger : Int → List Char
  | .ofNat value => Nat.toDigits 10 value
  | .negSucc value => '-' :: Nat.toDigits 10 (value + 1)

/-- Texts with commas between them. -/
def commaSeparated : List (List Char) → List Char
  | [] => []
  | [last] => last
  | first :: rest => first ++ ',' :: commaSeparated rest

def bracketed (items : List (List Char)) : List Char :=
  '[' :: commaSeparated items ++ [']']

def keyed (key value : List Char) : List Char :=
  quote key ++ ':' :: value

def braced (members : List (List Char)) : List Char :=
  '\x7b' :: commaSeparated members ++ ['\x7d']

mutual

/-- The compact text of a value. -/
def Value.compact : Value → List Char
  | .null => "null".toList
  | .bool true => "true".toList
  | .bool false => "false".toList
  | .integer value => renderInteger value
  | .double value => Decimal.render doubleLayout value
  | .string text => quote text
  | .array items => bracketed (Value.compactItems items)
  | .object members => braced (Value.compactMembers members)

def Value.compactItems : List Value → List (List Char)
  | [] => []
  | item :: rest => Value.compact item :: Value.compactItems rest

def Value.compactMembers : List (List Char × Value) → List (List Char)
  | [] => []
  | (key, value) :: rest =>
      keyed key (Value.compact value) :: Value.compactMembers rest

end

end LogPager.Json
