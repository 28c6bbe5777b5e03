import LogPager.Json.Value
import LogPager.Record.Logfmt
import LogPager.Text.AnsiEscape

/-!
# Records from lines

A line that is a JSON object or holds structuring pairs gives a structured
record.  Any other line is the message of its record, without terminal escape
sequences.
-/

namespace LogPager.Record

/-- What a member of a JSON object says about a record, by its key. -/
def applyMember (record : Record) (key text : String) : Record :=
  match key with
  | "t" | "time" | "ts" | "timestamp" => { record with timestamp := text }
  | "lvl" | "level" | "severity" => { record with severity := .parse text }
  | "msg" | "message" => { record with message := text }
  | _ => { record with context := record.context ++ [key, text] }

/-- The text a member contributes: strings as they are, anything else
compact. -/
def memberText : Json.Value → List Char
  | .string text => text
  | other => other.compact

def ofMembers (position : Nat) (members : List (List Char × Json.Value)) :
    Record :=
  members.foldl
    (fun record (key, value) =>
      applyMember record (String.ofList key) (String.ofList (memberText value)))
    { position }

/-- The record of a JSON object, none for any other text. -/
def ofJson? (position : Nat) (text : List Char) : Option Record :=
  match text with
  | '\x7b' :: _ =>
      match Json.Value.parse? text with
      | some (.object members) => some (ofMembers position members)
      | _ => none
  | _ => none

/-- The record of a line that is neither a JSON object nor a line of pairs. -/
def ofPlain (position : Nat) (line : List Char) : Record :=
  { position, message := String.ofList (Text.AnsiEscape.strip line) }

/-- The record of one line. -/
def ofLine (position : Nat) (line : List Char) : Record :=
  let trimmed := Text.trim line
  match ofJson? position trimmed with
  | some record => record
  | none =>
      match Logfmt.record? position trimmed with
      | some record => record
      | none => ofPlain position line

/-- Build a record from one line of its file. -/
def parseLine (position : Nat) (line : String) : Record :=
  ofLine position line.toList

end LogPager.Record
