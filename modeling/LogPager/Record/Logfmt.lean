import LogPager.Record.Basic

/-!
# Records from key=value lines

A pair is a key, an equals sign and a value.  A value is a quoted text when
one stands there, and the longest run without blanks otherwise.  Pairs are
found from left to right, and everything between them is passed over.
-/

namespace LogPager.Logfmt

/-- Characters a key may begin with. -/
def isKeyStart (character : Char) : Bool :=
  character.isAlpha || character == '_'

/-- Characters a key may go on with. -/
def isKeyPart (character : Char) : Bool :=
  character.isAlphanum || character == '_' || character == '.' ||
    character == '-'

/-- The inside of a quoted text up to its closing quote, and what follows the
quote.  A backslash takes the next character with it, which may not be a
newline. -/
def quotedBody? : List Char → Option (List Char × List Char)
  | [] => none
  | '"' :: rest => some ([], rest)
  | '\\' :: '\n' :: _ => none
  | '\\' :: escaped :: rest =>
      (quotedBody? rest).map fun (body, after) =>
        ('\\' :: escaped :: body, after)
  | '\\' :: [] => none
  | character :: rest =>
      (quotedBody? rest).map fun (body, after) => (character :: body, after)

/-- The longest run without blanks at the start of the text. -/
def bareRun (text : List Char) : List Char × List Char :=
  (text.takeWhile (!Text.isBlank ·), text.dropWhile (!Text.isBlank ·))

/-- The value at the start of the text as it is written, and what follows. -/
def rawValue (text : List Char) : List Char × List Char :=
  match text with
  | '"' :: inside =>
      match quotedBody? inside with
      | some (body, after) => ('"' :: body ++ ['"'], after)
      | none => bareRun text
  | _ => bareRun text

/-- Drop every backslash that stands before the given character, scanning
from left to right. -/
def dropEscapeBefore (escaped : Char) : List Char → List Char
  | [] => []
  | [last] => [last]
  | first :: second :: rest =>
      if first = '\\' ∧ second = escaped then
        escaped :: dropEscapeBefore escaped rest
      else first :: dropEscapeBefore escaped (second :: rest)

/-- The text between quotes at both ends of a written value, if they are
there. -/
def unquoted? : List Char → Option (List Char)
  | '"' :: inside =>
      if inside.getLast? = some '"' then some inside.dropLast else none
  | _ => none

/-- What a written value means: inside quotes first every escaped quote and
then every escaped backslash loses its backslash. -/
def valueOf (raw : List Char) : List Char :=
  match unquoted? raw with
  | some inside => dropEscapeBefore '\\' (dropEscapeBefore '"' inside)
  | none => raw

theorem bareRun_rest_length (text : List Char) :
    (bareRun text).2.length ≤ text.length :=
  Text.length_dropWhile_le _ text

theorem quotedBody?_rest_length {text body after : List Char}
    (found : quotedBody? text = some (body, after)) :
    after.length ≤ text.length := by
  fun_induction quotedBody? text generalizing body after <;>
    simp_all <;> grind

theorem rawValue_rest_length (text : List Char) :
    (rawValue text).2.length ≤ text.length := by
  unfold rawValue
  split
  case h_1 inside =>
      split
      case h_1 body after found =>
          have := quotedBody?_rest_length found
          simp only [List.length_cons]
          omega
      case h_2 => exact bareRun_rest_length _
  case h_2 => exact bareRun_rest_length text

/-- The key, the written value and the rest of the text after the first pair
of a text. -/
def pairsFrom (text : List Char) : List (List Char × List Char) :=
  match text with
  | [] => []
  | first :: rest =>
      if isKeyStart first then
        let key := first :: rest.takeWhile isKeyPart
        match _remaining : rest.dropWhile isKeyPart with
        | '=' :: value =>
            (key, (rawValue value).1) :: pairsFrom (rawValue value).2
        | other => pairsFrom other
      else pairsFrom rest
termination_by text.length
decreasing_by
  · have shorter := Text.length_dropWhile_le isKeyPart rest
    have value := rawValue_rest_length value
    rw [_remaining] at shorter
    simp only [List.length_cons] at shorter ⊢
    omega
  · have shorter := Text.length_dropWhile_le isKeyPart rest
    rw [_remaining] at shorter
    simp only [List.length_cons]
    omega
  · simp only [List.length_cons]
    omega

/-- What a pair says about a record, by its key. -/
def applyPair (record : Record) (key value : String) : Record :=
  match key with
  | "t" | "time" | "ts" => { record with timestamp := value }
  | "lvl" | "level" => { record with severity := .parse value }
  | "msg" | "message" => { record with message := value }
  | _ => { record with context := record.context ++ [key, value] }

/-- Keys without which a line of pairs is not a structured record. -/
def isStructuring (key : String) : Bool :=
  key == "lvl" || key == "level" || key == "msg" || key == "message"

/-- Keys and values of a line, in order. -/
def pairs (text : List Char) : List (String × String) :=
  (pairsFrom text).map fun (key, raw) =>
    (String.ofList key, String.ofList (valueOf raw))

/-- The record of a line of pairs, none unless a pair gives its severity or
its message. -/
def record? (position : Nat) (text : List Char) : Option Record :=
  let found := pairs text
  if found.any fun (key, _) => isStructuring key then
    some (found.foldl (fun record (key, value) => applyPair record key value)
      { position })
  else none

end LogPager.Logfmt
