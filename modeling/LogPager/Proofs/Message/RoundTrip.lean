import LogPager.Message.Json
import LogPager.Proofs.Json.Reading
import Mathlib.Data.List.Nodup

/-!
# Messages are read as they were written

Encoding a message and its parts writes objects in which every field stands once
under its name.  Reading their trees field by field gives back the message, as
every severity is read from its name and every position of 64 bits from its
digits.
-/

namespace LogPager

namespace Json

/-- A field of a structure: its name, and the text and the tree of its
value. -/
structure Field where
  name : String
  text : List Char
  tree : Tree

namespace Field

def entry (field : Field) : Entry :=
  { key := field.name.toList, text := field.text, tree := field.tree }

/-- The tree of a structure with these fields. -/
def object (fields : List Field) : Tree :=
  .object (fields.map fun field => field.entry.node)

theorem reads_object {fields : List Field}
    (reads : ∀ field ∈ fields, Reads field.text field.tree) :
    Reads (braced (fields.map fun field => member field.name field.text))
      (object fields) := by
  have each : ∀ entry ∈ fields.map Field.entry, Reads entry.text entry.tree := by
    intro entry present
    obtain ⟨field, among, rfl⟩ := List.mem_map.mp present
    exact reads field among
  have whole := reads_braced each
  rw [List.map_map, List.map_map] at whole
  exact whole

theorem node_named (field : Field) (name : String) :
    (field.entry.node.1 == some name.toList) = (field.name == name) := by
  rw [Bool.eq_iff_iff]
  simp [entry, Entry.node, String.toList_inj]

theorem member?_of_mem {fields : List Field}
    (distinct : (fields.map Field.name).Nodup) {field : Field}
    (present : field ∈ fields) :
    Tree.member? (fields.map fun field => field.entry.node) field.name =
      some (some field.tree) := by
  obtain ⟨before, after, rfl⟩ := List.append_of_mem present
  have others : field.name ∉ (before ++ after).map Field.name := by
    rw [List.map_append, List.map_cons, List.nodup_middle,
      ← List.map_append] at distinct
    exact (List.nodup_cons.mp distinct).1
  have away : ∀ part ⊆ before ++ after,
      (part.map fun field => field.entry.node).filter
        (fun member => member.1 == some field.name.toList) = [] := by
    intro part within
    rw [List.filter_eq_nil_iff]
    intro member isNode
    obtain ⟨other, inPart, rfl⟩ := List.mem_map.mp isNode
    rw [node_named, beq_iff_eq]
    intro same
    exact others (same ▸ List.mem_map_of_mem (within inPart))
  have only : ((before ++ field :: after).map fun field => field.entry.node).filter
      (fun member => member.1 == some field.name.toList) =
        [field.entry.node] := by
    rw [List.map_append, List.map_cons, List.filter_append,
      List.filter_cons_of_pos (by rw [node_named, beq_iff_eq]),
      away before (List.subset_append_left _ _),
      away after (List.subset_append_right _ _)]
    rfl
  rw [Tree.member?, only]
  rfl

end Field

theorem mapM_map_eq {α β γ : Type} {write : α → β} {read? : β → Option γ}
    {value : α → γ} {items : List α}
    (reads : ∀ item ∈ items, read? (write item) = some (value item)) :
    (items.map write).mapM read? = some (items.map value) := by
  induction items with
  | nil => rfl
  | cons item items ih =>
      have first := reads item List.mem_cons_self
      have later := ih fun other member =>
        reads other (List.mem_cons_of_mem _ member)
      rw [List.map_cons, List.mapM_cons, first, later]
      rfl

theorem fields?_object {fields : List Field}
    (distinct : (fields.map Field.name).Nodup) :
    Tree.fields? (fields.map Field.name) (Field.object fields) =
      some (fields.map fun field => some field.tree) := by
  have keyed : (fields.map fun field => field.entry.node).all
      fun member => member.1.isSome := by
    simp [Field.entry, Entry.node]
  rw [Field.object, Tree.fields?, if_pos keyed]
  exact mapM_map_eq fun field present => Field.member?_of_mem distinct present

theorem items?_array {α : Type} {write : α → Tree} {read? : Tree → Option α}
    {items : List α} (reads : ∀ item ∈ items, read? (write item) = some item) :
    Tree.items? read? (.array (items.map write)) = some items := by
  have read := mapM_map_eq reads
  rw [List.map_id'] at read
  exact read

def textTree (text : String) : Tree :=
  .string (some text.toList)

theorem reads_quoted (text : String) : Reads (quoted text) (textTree text) :=
  reads_quote text.toList

@[simp] theorem text?_textTree (text : String) :
    (textTree text).text? = some text := by
  rw [textTree, Tree.text?, String.ofList_toList]

theorem word?_wordLiteral {value : Nat} (fits : value < Text.wordBound) :
    (Tree.number (wordLiteral value)).word? = some value := by
  simp [Tree.word?, wordLiteral, digitsValue_toDigits, fits]

end Json

open Json (Field Reads Tree textTree)

theorem Severity.ofTree?_name (severity : Severity) :
    ofTree? (textTree severity.name) = some severity := by
  have parsed : parse severity.name = severity := by
    cases severity <;> rfl
  rw [ofTree?, Json.text?_textTree]
  exact congrArg some parsed

namespace FileRef

def fields (file : FileRef) : List Field :=
  [⟨"name", Json.quoted file.name, textTree file.name⟩,
    ⟨"cursor", Json.quoted file.cursor, textTree file.cursor⟩]

theorem reads_encode (file : FileRef) :
    Reads file.encode (Field.object file.fields) := by
  have each : ∀ field ∈ file.fields, Reads field.text field.tree := by
    intro field present
    simp only [fields, List.mem_cons, List.not_mem_nil, or_false] at present
    rcases present with rfl | rfl
    · exact Json.reads_quoted file.name
    · exact Json.reads_quoted file.cursor
  exact Field.reads_object each

theorem ofTree?_fields (file : FileRef) :
    ofTree? (Field.object file.fields) = some file := by
  have distinct : (file.fields.map Field.name).Nodup :=
    (by decide : ["name", "cursor"].Nodup)
  have found : Tree.fields? ["name", "cursor"] (Field.object file.fields) =
      some [some (textTree file.name), some (textTree file.cursor)] :=
    Json.fields?_object distinct
  simp [ofTree?, found, Tree.fieldOr]

/-- The tree of a source. -/
def optionTree : Option FileRef → Tree
  | none => .null
  | some file => Field.object file.fields

theorem optionOfTree?_optionTree (source : Option FileRef) :
    optionOfTree? (optionTree source) = some source := by
  cases source with
  | none => rfl
  | some file =>
      have read : optionOfTree? (optionTree (some file)) =
          (ofTree? (Field.object file.fields)).map some := rfl
      rw [read, ofTree?_fields]
      rfl

end FileRef

namespace Record

def fields (record : Record) : List Field :=
  [⟨"pos", Nat.toDigits 10 record.position,
      .number (Json.wordLiteral record.position)⟩,
    ⟨"t", Json.quoted record.timestamp, textTree record.timestamp⟩,
    ⟨"lvl", Json.quoted record.severity.name, textTree record.severity.name⟩,
    ⟨"msg", Json.quoted record.message, textTree record.message⟩,
    ⟨"ctx", Json.bracketed (record.context.map Json.quoted),
      .array (record.context.map textTree)⟩]

theorem reads_encode (record : Record) :
    Reads record.encode (Field.object record.fields) := by
  have each : ∀ field ∈ record.fields, Reads field.text field.tree := by
    intro field present
    simp only [fields, List.mem_cons, List.not_mem_nil, or_false] at present
    rcases present with rfl | rfl | rfl | rfl | rfl
    · exact Json.reads_toDigits record.position
    · exact Json.reads_quoted record.timestamp
    · exact Json.reads_quoted record.severity.name
    · exact Json.reads_quoted record.message
    · exact Json.reads_bracketed fun text _ => Json.reads_quoted text
  exact Field.reads_object each

theorem ofTree?_fields {record : Record}
    (fits : record.position < Text.wordBound) :
    ofTree? (Field.object record.fields) = some record := by
  have distinct : (record.fields.map Field.name).Nodup :=
    (by decide : ["pos", "t", "lvl", "msg", "ctx"].Nodup)
  have found : Tree.fields? ["pos", "t", "lvl", "msg", "ctx"]
      (Field.object record.fields) =
        some [some (.number (Json.wordLiteral record.position)),
          some (textTree record.timestamp),
          some (textTree record.severity.name), some (textTree record.message),
          some (.array (record.context.map textTree))] :=
    Json.fields?_object distinct
  have position := Json.word?_wordLiteral fits
  have severity := record.severity.ofTree?_name
  have context := Json.items?_array fun text (_ : text ∈ record.context) =>
    Json.text?_textTree text
  simp [ofTree?, found, Tree.fieldOr, position, severity, context]

end Record

namespace Message

def fields (message : Message) : List Field :=
  [⟨"source",
      match message.source with
      | none => "null".toList
      | some file => file.encode,
      FileRef.optionTree message.source⟩,
    ⟨"chunk", Json.bracketed (message.records.map Record.encode),
      .array (message.records.map fun record => Field.object record.fields)⟩,
    ⟨"boundary", if message.boundary then "true".toList else "false".toList,
      .bool message.boundary⟩]

theorem reads_encode (message : Message) :
    Reads message.encode.toList (Field.object message.fields) := by
  have each : ∀ field ∈ message.fields, Reads field.text field.tree := by
    intro field present
    simp only [fields, List.mem_cons, List.not_mem_nil, or_false] at present
    rcases present with rfl | rfl | rfl
    · cases message.source with
      | none => exact Json.reads_null
      | some file => exact file.reads_encode
    · exact Json.reads_bracketed fun record _ => record.reads_encode
    · exact Json.reads_bool message.boundary
  rw [encode, String.toList_ofList]
  exact Field.reads_object each

theorem ofTree?_fields {message : Message}
    (fits : ∀ record ∈ message.records, record.position < Text.wordBound) :
    ofTree? (Field.object message.fields) = some message := by
  have distinct : (message.fields.map Field.name).Nodup :=
    (by decide : ["source", "chunk", "boundary"].Nodup)
  have found : Tree.fields? ["source", "chunk", "boundary"]
      (Field.object message.fields) =
        some [some (FileRef.optionTree message.source),
          some (.array (message.records.map fun record =>
            Field.object record.fields)),
          some (.bool message.boundary)] :=
    Json.fields?_object distinct
  have source := FileRef.optionOfTree?_optionTree message.source
  have records := Json.items?_array fun record present =>
    Record.ofTree?_fields (fits record present)
  simp [ofTree?, found, Tree.fieldOr, source, records]
  rfl

/-- Decoding what a message is encoded as gives back the message. -/
theorem decode?_encode (message : Message)
    (fits : ∀ record ∈ message.records, record.position < Text.wordBound) :
    decode? message.encode = some message := by
  rw [decode?, Json.decode?, message.reads_encode.parse?]
  exact ofTree?_fields fits

/-- A message with characters that are escaped, empty fragments and the largest
position. -/
def unusual : Message where
  source := some { name := "\\logs\\\"new\".log", cursor := "\n" }
  records := [{
    position := 18446744073709551615
    severity := .warn
    message := "\x00\t\x1f\x7f/\u2028\u00e9😀"
    context := ["", "key", ""] }]
  boundary := true

theorem decode?_encode_unusual : decode? unusual.encode = some unusual := by
  apply decode?_encode
  decide

end Message
end LogPager
