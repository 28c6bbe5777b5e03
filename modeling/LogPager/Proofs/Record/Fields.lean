import LogPager.Record.Line
import Mathlib.Data.List.Induction

/-!
# Fields of a structured record

Both kinds of structured lines are taken pair by pair: a key that names a field
sets it, any other key goes to the context with its value.  After all pairs a
field has the last of its values, and the context has the other pairs in their
order.  The two kinds differ in the keys that name a field.
-/

namespace LogPager

/-- The keys that name the fields of a record; none names two. -/
structure FieldKeys where
  timestamp : List String
  severity : List String
  message : List String
  apart : (timestamp ++ severity ++ message).Nodup := by decide

namespace FieldKeys

/-- All keys that name a field. -/
def all (keys : FieldKeys) : List String :=
  keys.timestamp ++ keys.severity ++ keys.message

/-- Take one more pair into a record. -/
def put (keys : FieldKeys) (record : Record) (pair : String × String) :
    Record :=
  if pair.1 ∈ keys.timestamp then { record with timestamp := pair.2 }
  else if pair.1 ∈ keys.severity then
    { record with severity := .parse pair.2 }
  else if pair.1 ∈ keys.message then { record with message := pair.2 }
  else { record with context := record.context ++ [pair.1, pair.2] }

/-- The value of the last pair with one of the keys. -/
def lastValue? (names : List String) (pairs : List (String × String)) :
    Option String :=
  (pairs.filter (·.1 ∈ names)).getLast?.map (·.2)

/-- Keys and values of the pairs that name no field. -/
def contextOf (keys : FieldKeys) (pairs : List (String × String)) :
    List String :=
  (pairs.filter (·.1 ∉ keys.all)).flatMap fun pair => [pair.1, pair.2]

/-- The record that some pairs give. -/
def record (keys : FieldKeys) (position : Nat)
    (pairs : List (String × String)) : Record where
  position
  timestamp := (lastValue? keys.timestamp pairs).getD ""
  severity := (lastValue? keys.severity pairs).elim .unknown .parse
  message := (lastValue? keys.message pairs).getD ""
  context := keys.contextOf pairs

theorem lastValue?_concat (names : List String)
    (pairs : List (String × String)) (pair : String × String) :
    lastValue? names (pairs ++ [pair]) =
      if pair.1 ∈ names then some pair.2 else lastValue? names pairs := by
  unfold lastValue?
  by_cases named : pair.1 ∈ names
  · simp [List.filter_append, named]
  · simp [List.filter_append, named]

theorem lastValue?_congr {names others : List String}
    {pairs : List (String × String)}
    (alike : ∀ pair ∈ pairs, pair.1 ∈ names ↔ pair.1 ∈ others) :
    lastValue? names pairs = lastValue? others pairs := by
  unfold lastValue?
  rw [List.filter_congr]
  intro pair member
  exact decide_eq_decide.mpr (alike pair member)

theorem length_contextOf (keys : FieldKeys) (pairs : List (String × String)) :
    (keys.contextOf pairs).length =
      2 * (pairs.filter (·.1 ∉ keys.all)).length := by
  rw [contextOf, List.length_flatMap]
  simp only [List.length_cons, List.length_nil, List.map_const',
    List.sum_replicate_nat, Nat.mul_comm]

theorem contextOf_concat (keys : FieldKeys) (pairs : List (String × String))
    (pair : String × String) :
    keys.contextOf (pairs ++ [pair]) =
      keys.contextOf pairs ++
        if pair.1 ∈ keys.all then [] else [pair.1, pair.2] := by
  unfold contextOf
  by_cases named : pair.1 ∈ keys.all
  · simp [List.filter_append, named]
  · simp [List.filter_append, named]

/-- A pair more is one that is put into the record of those before. -/
theorem record_concat (keys : FieldKeys) (position : Nat)
    (pairs : List (String × String)) (pair : String × String) :
    keys.record position (pairs ++ [pair]) =
      keys.put (keys.record position pairs) pair := by
  have apart := keys.apart
  simp only [List.nodup_append, List.mem_append] at apart
  obtain ⟨⟨_, _, early⟩, _, late⟩ := apart
  unfold record put
  simp only [lastValue?_concat, contextOf_concat, all, List.mem_append]
  by_cases timestamp : pair.1 ∈ keys.timestamp
  · have other : pair.1 ∉ keys.severity := fun named =>
      early _ timestamp _ named rfl
    have last : pair.1 ∉ keys.message := fun named =>
      late _ (.inl timestamp) _ named rfl
    simp [timestamp, other, last]
  · by_cases severity : pair.1 ∈ keys.severity
    · have last : pair.1 ∉ keys.message := fun named =>
        late _ (.inr severity) _ named rfl
      simp [timestamp, severity, last]
    · by_cases message : pair.1 ∈ keys.message
      · simp [timestamp, severity, message]
      · simp [timestamp, severity, message]

theorem foldl_put (keys : FieldKeys) (position : Nat)
    (pairs : List (String × String)) :
    pairs.foldl keys.put { position } = keys.record position pairs := by
  induction pairs using List.reverseRecOn with
  | nil => rfl
  | append_singleton pairs pair ih =>
      rw [List.foldl_append, ih, record_concat]
      rfl

end FieldKeys

/-- The keys of a line of pairs. -/
def Logfmt.fieldKeys : FieldKeys where
  timestamp := ["t", "time", "ts"]
  severity := ["lvl", "level"]
  message := ["msg", "message"]

/-- The keys of a JSON object. -/
def Record.memberKeys : FieldKeys where
  timestamp := ["t", "time", "ts", "timestamp"]
  severity := ["lvl", "level", "severity"]
  message := ["msg", "message"]

theorem Logfmt.applyPair_eq (record : Record) (key value : String) :
    applyPair record key value = fieldKeys.put record (key, value) := by
  unfold applyPair FieldKeys.put
  split <;> simp_all [fieldKeys]

theorem Logfmt.record?_eq (position : Nat) (text : List Char) :
    record? position text =
      if (pairs text).any fun pair => isStructuring pair.1 then
        some (fieldKeys.record position (pairs text))
      else none := by
  simp only [record?, applyPair_eq]
  rw [← FieldKeys.foldl_put]

theorem Record.applyMember_eq (record : Record) (key text : String) :
    applyMember record key text = memberKeys.put record (key, text) := by
  unfold applyMember FieldKeys.put
  split <;> simp_all [memberKeys]

/-- The keys that name a field of a JSON object but none of a line of pairs. -/
def Record.extraKeys : List String :=
  ["timestamp", "severity"]

theorem Record.mem_memberKeys_all {key : String} :
    key ∈ memberKeys.all ↔ key ∈ Logfmt.fieldKeys.all ∨ key ∈ extraKeys := by
  simp only [memberKeys, Logfmt.fieldKeys, FieldKeys.all, extraKeys,
    List.mem_append, List.mem_cons, List.not_mem_nil, or_false]
  tauto

/-- The other keys name the same field for both kinds. -/
theorem Record.mem_memberKeys {key : String} (shared : key ∉ extraKeys) :
    (key ∈ memberKeys.timestamp ↔ key ∈ Logfmt.fieldKeys.timestamp) ∧
      (key ∈ memberKeys.severity ↔ key ∈ Logfmt.fieldKeys.severity) := by
  simp_all [memberKeys, Logfmt.fieldKeys, extraKeys]

theorem Record.not_mem_fieldKeys {key : String} (extra : key ∈ extraKeys) :
    key ∉ Logfmt.fieldKeys.all := by
  revert key
  decide

theorem Record.contextOf_memberKeys (pairs : List (String × String)) :
    memberKeys.contextOf pairs =
      Logfmt.fieldKeys.contextOf (pairs.filter (·.1 ∉ extraKeys)) := by
  unfold FieldKeys.contextOf
  rw [List.filter_filter]
  congr 1
  apply List.filter_congr
  intro pair _
  simp [mem_memberKeys_all]

/-- The keys of the two kinds lead to the same record exactly if none of them
names a field for one kind only. -/
theorem Record.record_memberKeys_eq_iff (position : Nat)
    (pairs : List (String × String)) :
    memberKeys.record position pairs = Logfmt.fieldKeys.record position pairs ↔
      ∀ pair ∈ pairs, pair.1 ∉ extraKeys := by
  constructor
  · intro same pair member extra
    -- Where a pair is left out of the context, the context is shorter.
    have lengths := congrArg (·.context.length) same
    simp only [FieldKeys.record, contextOf_memberKeys, FieldKeys.length_contextOf]
      at lengths
    have swapped : (pairs.filter (·.1 ∉ extraKeys)).filter
          (·.1 ∉ Logfmt.fieldKeys.all) =
        (pairs.filter (·.1 ∉ Logfmt.fieldKeys.all)).filter
          (·.1 ∉ extraKeys) := by
      simp only [List.filter_filter, Bool.and_comm]
    rw [swapped] at lengths
    have within : pair ∈ pairs.filter (·.1 ∉ Logfmt.fieldKeys.all) := by
      simpa using ⟨member, not_mem_fieldKeys extra⟩
    have shared := List.length_filter_eq_length_iff.mp
      (Nat.eq_of_mul_eq_mul_left Nat.two_pos lengths) pair within
    simp [extra] at shared
  · intro shared
    have timestamps := FieldKeys.lastValue?_congr fun pair member =>
      (mem_memberKeys (shared pair member)).1
    have severities := FieldKeys.lastValue?_congr fun pair member =>
      (mem_memberKeys (shared pair member)).2
    have whole : pairs.filter (·.1 ∉ extraKeys) = pairs := by
      rw [List.filter_eq_self]
      intro pair member
      simpa using shared pair member
    rw [FieldKeys.record, FieldKeys.record, timestamps, severities,
      contextOf_memberKeys, whole]
    rfl

end LogPager
