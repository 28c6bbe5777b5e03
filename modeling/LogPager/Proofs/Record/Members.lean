import LogPager.Proofs.Json.Reading
import LogPager.Proofs.Record.WrittenPairs
import Mathlib.Data.List.Nodup

/-!
# Members and pairs

A JSON object whose members are strings, and a line of pairs with the same keys
and values, give the same record unless a key is a field of objects only.
However the object is spelled, its record depends on nothing but its members.
-/

namespace LogPager
namespace Json

/-- The object with these members, all of them strings. -/
def Value.ofPairs (pairs : List (String × String)) : Value :=
  .object (pairs.map fun pair => (pair.1.toList, .string pair.2.toList))

/-- A member that is a string, as it is written. -/
def textEntry (pair : String × String) : Entry where
  key := pair.1.toList
  text := quote pair.2.toList
  tree := .string (some pair.2.toList)

theorem Value.compact_ofPairs (pairs : List (String × String)) :
    (ofPairs pairs).compact =
      braced ((pairs.map textEntry).map Entry.written) := by
  have members : compactMembers
      (pairs.map fun pair => (pair.1.toList, .string pair.2.toList)) =
        (pairs.map textEntry).map Entry.written := by
    induction pairs with
    | nil => rfl
    | cons pair rest ih =>
        simp only [List.map_cons, compactMembers, ih]
        rfl
  rw [ofPairs, compact, members]

theorem setMember_of_new {key : List Char} {value : Value}
    {members : List (List Char × Value)} (new : key ∉ members.map (·.1)) :
    setMember key value members = members ++ [(key, value)] := by
  induction members with
  | nil => rfl
  | cons member rest ih =>
      rw [List.map_cons, List.mem_cons, not_or] at new
      obtain ⟨other, later⟩ := new
      rw [setMember, if_neg (Ne.symm other), ih later, List.cons_append]

theorem mergeMembers_of_distinct {members : List (List Char × Value)}
    (distinct : (members.map (·.1)).Nodup) :
    mergeMembers members = members := by
  induction members using List.reverseRecOn with
  | nil => rfl
  | append_singleton members member ih =>
      rw [List.map_append, List.nodup_append] at distinct
      obtain ⟨earlier, _, apart⟩ := distinct
      have new : member.1 ∉ members.map (·.1) := fun repeats =>
        apart _ repeats _ (by simp) rfl
      have before := ih earlier
      unfold mergeMembers at before ⊢
      rw [List.foldl_append, before]
      exact setMember_of_new new

theorem Value.ofMembers?_texts (pairs : List (String × String)) :
    ofMembers? ((pairs.map textEntry).map Entry.node) =
      some (pairs.map fun pair => (pair.1.toList, .string pair.2.toList)) := by
  induction pairs with
  | nil => rfl
  | cons pair rest ih =>
      rw [List.map_cons, List.map_cons, Entry.node, ofMembers?, ih]
      rfl

theorem Tree.nestingOfMembers_texts (pairs : List (String × String)) :
    nestingOfMembers ((pairs.map textEntry).map Entry.node) = 0 := by
  induction pairs with
  | nil => rfl
  | cons pair rest ih =>
      rw [List.map_cons, List.map_cons, Entry.node, nestingOfMembers, ih]
      rfl

theorem Value.parse?_compact_ofPairs {pairs : List (String × String)}
    (distinct : (pairs.map (·.1)).Nodup) :
    parse? (ofPairs pairs).compact = some (ofPairs pairs) := by
  have each : ∀ entry ∈ pairs.map textEntry, Reads entry.text entry.tree := by
    intro entry member
    obtain ⟨pair, _, rfl⟩ := List.mem_map.mp member
    exact reads_quote _
  have keys : ((pairs.map fun pair =>
      (pair.1.toList, Value.string pair.2.toList)).map (·.1)).Nodup := by
    have apart := List.Nodup.map (fun _ _ => String.toList_inj.mp) distinct
    rw [List.map_map] at apart ⊢
    exact apart
  have shallow : (Tree.object ((pairs.map textEntry).map Entry.node)).nesting ≤
      nestingBound := by
    rw [Tree.nesting, Tree.nestingOfMembers_texts]
    decide
  rw [parse?, compact_ofPairs, (reads_braced each).parse?]
  simp only [shallow, if_true, ofTree?, ofMembers?_texts, Option.map_some,
    mergeMembers_of_distinct keys]
  rfl

theorem begins_of_readValue? {depth : Nat} {text rest : List Char}
    {members : List (Option (List Char) × Tree)}
    (read : readValue? depth text = some (.object members, rest)) :
    (skipSpaces text).head? = some '\x7b' := by
  cases depth with
  | zero => cases read
  | succ depth =>
      unfold readValue? at read
      split at read
      · cases read
      · cases read
      · cases read
      · obtain ⟨string, _, other⟩ := Option.map_eq_some_iff.mp read
        cases other
      · split at read
        · cases read
        · obtain ⟨items, _, other⟩ := Option.map_eq_some_iff.mp read
          cases other
      · rename_i begins
        rw [begins]
        rfl
      · obtain ⟨number, _, other⟩ := Option.map_eq_some_iff.mp read
        cases other

theorem Value.exists_members_of_ofTree? {tree : Tree}
    {members : List (List Char × Value)}
    (denotes : ofTree? tree = some (.object members)) :
    ∃ nodes, tree = .object nodes := by
  cases tree with
  | object nodes => exact ⟨nodes, rfl⟩
  | null | bool => cases denotes
  | number literal =>
      unfold ofTree? NumberLiteral.value? at denotes
      split at denotes
      · cases denotes
      · obtain ⟨number, _, other⟩ := Option.map_eq_some_iff.mp denotes
        cases other
  | string text =>
      obtain ⟨string, _, other⟩ := Option.map_eq_some_iff.mp denotes
      cases other
  | array items =>
      obtain ⟨values, _, other⟩ := Option.map_eq_some_iff.mp denotes
      cases other

/-- Only a text that begins with an opening brace denotes an object. -/
theorem Value.begins_of_parse? {text : List Char}
    {members : List (List Char × Value)}
    (read : parse? text = some (.object members)) :
    (skipSpaces text).head? = some '\x7b' := by
  unfold parse? at read
  split at read
  · cases read
  · rename_i tree parsed
    split at read
    · obtain ⟨nodes, rfl⟩ := exists_members_of_ofTree? read
      unfold Tree.parse? at parsed
      split at parsed
      · rename_i other rest whole
        split at parsed
        · cases parsed
          exact begins_of_readValue? whole
        · cases parsed
      · cases parsed
    · cases read

end Json

namespace Text

theorem isBlank_of_isSpace {character : Char}
    (space : Json.isSpace character = true) : isBlank character = true := by
  apply isBlank_of_isWhitespace
  simp only [Json.isSpace, Bool.or_eq_true, beq_iff_eq] at space
  rcases space with ((rfl | rfl) | rfl) | rfl <;> rfl

theorem trim_prefix (text : List Char) :
    trim text <+: text.dropWhile isBlank := by
  rw [trim, trimEndWhere, ← List.reverse_suffix, List.reverse_reverse]
  exact List.dropWhile_suffix _

theorem skipSpaces_trim (text : List Char) :
    Json.skipSpaces (trim text) = trim text := by
  obtain ⟨after, whole⟩ := trim_prefix text
  cases begins : trim text with
  | nil => rfl
  | cons first rest =>
      rw [begins, List.cons_append] at whole
      have solid : isBlank first = false := by
        have kept := List.head?_dropWhile_not isBlank text
        rw [← whole] at kept
        simpa using kept
      have apart : Json.isSpace first = false := by
        rw [← Bool.not_eq_true]
        intro space
        rw [isBlank_of_isSpace space] at solid
        cases solid
      exact List.dropWhile_cons_of_neg (by simp [apart])

end Text

namespace Record

/-- Keys and texts of the members of an object. -/
def memberPairs (members : List (List Char × Json.Value)) :
    List (String × String) :=
  members.map fun member =>
    (String.ofList member.1, String.ofList (memberText member.2))

theorem ofMembers_eq (position : Nat)
    (members : List (List Char × Json.Value)) :
    ofMembers position members =
      memberKeys.record position (memberPairs members) := by
  rw [ofMembers, memberPairs, ← FieldKeys.foldl_put, List.foldl_map]
  simp only [applyMember_eq]

theorem ofMembers_texts (position : Nat) (pairs : List (String × String)) :
    ofMembers position
        (pairs.map fun pair => (pair.1.toList, .string pair.2.toList)) =
      memberKeys.record position pairs := by
  rw [ofMembers_eq, memberPairs, List.map_map]
  congr 1
  simp [Function.comp_def, memberText]

/-- The line is the object with these members, however it is spelled. -/
def IsObject (line : String) (pairs : List (String × String)) : Prop :=
  Json.Value.parse? (Text.trim line.toList) = some (.ofPairs pairs)

theorem isObject_compact {pairs : List (String × String)}
    (distinct : (pairs.map (·.1)).Nodup) :
    IsObject (String.ofList (Json.Value.ofPairs pairs).compact) pairs := by
  have ends : (Json.Value.ofPairs pairs).compact.getLast? = some '\x7d' := by
    simp [Json.Value.ofPairs, Json.Value.compact, Json.braced,
      List.getLast?_cons]
  rw [IsObject, String.toList_ofList,
    Text.trim_eq_self rfl ends (by decide) (by decide)]
  exact Json.Value.parse?_compact_ofPairs distinct

theorem parseLine_of_object {line : String}
    {members : List (List Char × Json.Value)}
    (object : Json.Value.parse? (Text.trim line.toList) =
      some (.object members)) (position : Nat) :
    parseLine position line = ofMembers position members := by
  have begins := Json.Value.begins_of_parse? object
  rw [Text.skipSpaces_trim, List.head?_eq_some_iff] at begins
  obtain ⟨rest, opened⟩ := begins
  have made : ofJson? position (Text.trim line.toList) =
      some (ofMembers position members) := by
    rw [opened, ofJson?, ← opened, object]
  rw [parseLine, ofLine]
  simp only [made]

theorem parseLine_of_isObject {line : String} {pairs : List (String × String)}
    (object : IsObject line pairs) (position : Nat) :
    parseLine position line = memberKeys.record position pairs := by
  rw [parseLine_of_object object, ofMembers_texts]

/-- A line that is an object of strings, however it is spelled, gives the same
record as the line of pairs with its keys and values exactly if none of the keys
is one of the two that name a field of objects only. -/
theorem parseLine_of_object_eq_iff {pairs : List (String × String)}
    (keyed : ∀ pair ∈ pairs, Logfmt.isKey pair.1 = true)
    (structuring : ∃ pair ∈ pairs, Logfmt.isStructuring pair.1 = true)
    (distinct : (pairs.map (·.1)).Nodup) (position : Nat) :
    IsObject (String.ofList (Json.Value.ofPairs pairs).compact) pairs ∧
      ∀ line, IsObject line pairs →
        (parseLine position line = parseLine position (Logfmt.line pairs) ↔
          ∀ pair ∈ pairs, pair.1 ≠ "timestamp" ∧ pair.1 ≠ "severity") := by
  refine ⟨isObject_compact distinct, ?_⟩
  intro line object
  have pairsRecord : parseLine position (Logfmt.line pairs) =
      Logfmt.fieldKeys.record position pairs := by
    rw [parseLine, Logfmt.line, String.toList_ofList]
    exact ofLine_writePairs keyed structuring position
  rw [parseLine_of_isObject object, pairsRecord, record_memberKeys_eq_iff]
  simp [extraKeys]

/-- A message with blanks and quotes in an object and in a line of pairs. -/
theorem parseLine_of_quoting_object :
    parseLine 4 "\x7b\"lvl\":\"info\",\"msg\":\"a \\\"b\\\"\"\x7d" =
      parseLine 4 "lvl=\"info\" msg=\"a \\\"b\\\"\"" := by
  obtain ⟨object, agree⟩ := @parseLine_of_object_eq_iff
    [("lvl", "info"), ("msg", "a \"b\"")]
    (by decide) (by decide) (by decide) 4
  have spelled : String.ofList (Json.Value.ofPairs
      [("lvl", "info"), ("msg", "a \"b\"")]).compact =
        "\x7b\"lvl\":\"info\",\"msg\":\"a \\\"b\\\"\"\x7d" := by
    decide +kernel
  rw [spelled] at object
  exact (agree _ object).mpr (by decide)

/-- A time under a name that objects alone know is the time of one record and
context of the other. -/
theorem parseLine_apart_by_timestamp :
    let pairs := [("timestamp", "12:00"), ("msg", "up")]
    let line := "\x7b\"timestamp\":\"12:00\",\"msg\":\"up\"\x7d"
    IsObject line pairs ∧
      parseLine 0 line =
        { position := 0, timestamp := "12:00", message := "up" } ∧
      parseLine 0 (Logfmt.line pairs) =
        { position := 0, message := "up",
          context := ["timestamp", "12:00"] } := by
  intro pairs line
  have spelled : String.ofList (Json.Value.ofPairs pairs).compact = line := by
    decide +kernel
  refine ⟨?_, ?_, ?_⟩
  · rw [← spelled]
    exact isObject_compact (by decide)
  · decide +kernel
  · decide +kernel

end Record
end LogPager
