import LogPager.Json.Value

/-!
# Fields of JSON structures

A structure is an object with known fields, each at most once and any unknown
ones beside them, or an array of the first of its fields in their order.
-/

namespace LogPager.Json.Tree

def text? : Tree → Option String
  | .string (some text) => some (String.ofList text)
  | _ => none

/-- An unsigned number of 64 bits, written without sign, point and
exponent. -/
def word? : Tree → Option Nat
  | .number literal =>
      if literal.negative || literal.fraction.isSome ||
          literal.exponent.isSome then none
      else
        let value := digitsValue literal.whole
        if value < Text.wordBound then some value else none
  | _ => none

def bool? : Tree → Option Bool
  | .bool value => some value
  | _ => none

/-- The items of an array, each read by `read?`. -/
def items? (read? : Tree → Option α) : Tree → Option (List α)
  | .array items => items.mapM read?
  | _ => none

/-- The one member of a name, none inside when there is no such member. -/
def member? (members : List (Option (List Char) × Tree)) (name : String) :
    Option (Option Tree) :=
  match members.filter fun member => member.1 == some name.toList with
  | [] => some none
  | [member] => some (some member.2)
  | _ => none

/-- The named fields of a structure, in the order of the names; fields that
are not there are none inside. -/
def fields? (names : List String) : Tree → Option (List (Option Tree))
  | .object members =>
      if members.all fun member => member.1.isSome then
        names.mapM (member? members)
      else none
  | .array items =>
      if items.length ≤ names.length then
        some (items.map some ++
          List.replicate (names.length - items.length) none)
      else none
  | _ => none

def fieldOr (fallback : α) (read? : Tree → Option α) :
    Option Tree → Option α
  | none => some fallback
  | some tree => read? tree

end LogPager.Json.Tree
