import LogPager.Edge
import LogPager.Json.Fields
import LogPager.Message.Basic

/-!
# Messages as JSON

The wire form of messages and of their parts: how each is read from a tree and
how a message is written.
-/

namespace LogPager

open Json (Tree bracketed braced keyed quote)

/-- A severity is a spelling or a verbosity number. -/
def Severity.ofTree? (tree : Tree) : Option Severity :=
  match tree.text? with
  | some text => some (.parse text)
  | none => tree.word?.map .ofVerbosity

/-- An edge is its name, alone or as the key of a null. -/
def Edge.ofTree? : Tree → Option Edge
  | .object [(some key, .null)] => Edge.ofName? (String.ofList key)
  | tree => tree.text?.bind Edge.ofName?

/-- A record has the fields pos, t, lvl, msg and ctx, all but the first
optional. -/
def Record.ofTree? (tree : Tree) : Option Record := do
  match ← tree.fields? ["pos", "t", "lvl", "msg", "ctx"] with
  | [position, timestamp, severity, message, context] =>
      let position ← position
      let position ← position.word?
      let timestamp ← Tree.fieldOr "" Tree.text? timestamp
      let severity ← Tree.fieldOr .unknown Severity.ofTree? severity
      let message ← Tree.fieldOr "" Tree.text? message
      let context ← Tree.fieldOr [] (Tree.items? Tree.text?) context
      return { position, timestamp, severity, message, context }
  | _ => none

/-- A file reference has the fields name and cursor, the second optional. -/
def FileRef.ofTree? (tree : Tree) : Option FileRef := do
  match ← tree.fields? ["name", "cursor"] with
  | [name, cursor] =>
      let name ← name
      let name ← name.text?
      let cursor ← Tree.fieldOr "" Tree.text? cursor
      return { name, cursor }
  | _ => none

/-- A source is a file reference or null. -/
def FileRef.optionOfTree? : Tree → Option (Option FileRef)
  | .null => some none
  | tree => (FileRef.ofTree? tree).map some

/-- A message has the fields source, chunk and boundary.  All are optional in
an object; an array begins with the source. -/
def Message.ofTree? (tree : Tree) : Option Message := do
  if let .array [] := tree then none
  match ← tree.fields? ["source", "chunk", "boundary"] with
  | [source, records, boundary] =>
      let source ← Tree.fieldOr none FileRef.optionOfTree? source
      let records ← Tree.fieldOr [] (Tree.items? Record.ofTree?) records
      let boundary ← Tree.fieldOr false Tree.bool? boundary
      return { source, records, boundary }
  | _ => none

def Json.decode? (read? : Tree → Option α) (text : String) : Option α :=
  (Tree.parse? text.toList).bind read?

def Message.decode? (text : String) : Option Message :=
  Json.decode? Message.ofTree? text

namespace Json

def quoted (text : String) : List Char :=
  quote text.toList

def member (name : String) (value : List Char) : List Char :=
  keyed name.toList value

end Json

def FileRef.encode (file : FileRef) : List Char :=
  braced [Json.member "name" (Json.quoted file.name),
    Json.member "cursor" (Json.quoted file.cursor)]

def Record.encode (record : Record) : List Char :=
  braced [Json.member "pos" (Nat.toDigits 10 record.position),
    Json.member "t" (Json.quoted record.timestamp),
    Json.member "lvl" (Json.quoted record.severity.name),
    Json.member "msg" (Json.quoted record.message),
    Json.member "ctx" (bracketed (record.context.map Json.quoted))]

def Message.encode (message : Message) : String :=
  String.ofList <| braced [
    Json.member "source"
      (match message.source with
      | none => "null".toList
      | some file => file.encode),
    Json.member "chunk" (bracketed (message.records.map Record.encode)),
    Json.member "boundary"
      (if message.boundary then "true".toList else "false".toList)]

end LogPager
