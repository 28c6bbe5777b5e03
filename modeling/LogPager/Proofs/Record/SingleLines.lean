import LogPager.Proofs.Json.CompactText
import LogPager.Proofs.Record.Members
import LogPager.Proofs.Text.EscapeSequences
import LogPager.Record.Display

/-!
# Lines of the log and lines of the terminal

The display of a record adds no newline to the texts of the record, and neither
do plain lines and lines of pairs, whose texts are parts of the line.  A string
of a JSON object may spell a newline by an escape.  Where such a string becomes a
text of the record, one line of the log takes several lines of the terminal, and
nowhere else.
-/

namespace LogPager

namespace Record

/-- A text of the record goes on after the end of a line. -/
inductive Breaks (record : Record) : Prop
  | timestamp (newline : '\n' ∈ record.timestamp.toList)
  | message (newline : '\n' ∈ record.message.toList)
  | context {fragment : String} (member : fragment ∈ record.context)
      (newline : '\n' ∈ fragment.toList)

theorem newline_mem_reopen {opening : List Char} (single : '\n' ∉ opening)
    (text : List Char) :
    '\n' ∈ Styling.reopen opening text ↔ '\n' ∈ text := by
  fun_induction Styling.reopen opening text with
  | case1 rest ih => simp [single, ih]
  | case2 character rest _ ih => simp [ih]
  | case3 => rfl

theorem newline_mem_wrap {styling : Styling} {style text : String}
    (single : '\n' ∉ style.toList) :
    '\n' ∈ (styling.wrap style text).toList ↔ '\n' ∈ text.toList := by
  cases styling with
  | plain => rfl
  | styled =>
      have opening : '\n' ∉ ("\x1b[" ++ style ++ "m").toList := by
        simp [single]
      rw [Styling.wrap, String.toList_append, List.mem_append,
        String.toList_append, List.mem_append, String.toList_ofList,
        newline_mem_reopen opening]
      simp [single]

theorem newline_mem_displayTimestamp {styling : Styling} {record : Record} :
    '\n' ∈ (record.displayTimestamp styling).toList ↔
      '\n' ∈ record.timestamp.toList := by
  unfold displayTimestamp
  split
  · rename_i none
    rw [none]
  · simp [newline_mem_wrap]

theorem newline_mem_pairUp {fragments : List String} :
    (∃ pair ∈ pairUp fragments,
        '\n' ∈ pair.1.toList ∨ '\n' ∈ pair.2.toList) ↔
      ∃ fragment ∈ fragments, '\n' ∈ fragment.toList := by
  induction fragments using pairUp.induct with
  | case1 key value rest ih => simp [pairUp, ih, or_assoc]
  | case2 key => simp [pairUp]
  | case3 => simp [pairUp]

theorem newline_mem_displayContext {styling : Styling} {record : Record} :
    '\n' ∈ (record.displayContext styling).toList ↔
      ∃ fragment ∈ record.context, '\n' ∈ fragment.toList := by
  have fragment (pair : String × String) :
      '\n' ∈ (" " ++ styling.wrap "36" pair.1 ++ "=" ++ pair.2).toList ↔
        '\n' ∈ pair.1.toList ∨ '\n' ∈ pair.2.toList := by
    simp [newline_mem_wrap]
  refine Iff.trans ?_ newline_mem_pairUp
  rw [displayContext, String.toList_join, List.mem_flatMap]
  simp only [List.mem_map, exists_exists_and_eq_and, fragment, contextPairs]

theorem newline_not_mem_tag (severity : Severity) :
    '\n' ∉ severity.tag.toList ∧ '\n' ∉ severity.style.toList := by
  cases severity <;> decide

/-- A display has a newline exactly if a text of its record has one. -/
theorem newline_mem_display_iff {styling : Styling} {record : Record} :
    '\n' ∈ (record.display styling).toList ↔ record.Breaks := by
  obtain ⟨tag, style⟩ := newline_not_mem_tag record.severity
  by_cases bare : record.isBare = true
  · rw [display, if_pos bare]
    simp only [isBare, Bool.and_eq_true, beq_iff_eq, List.isEmpty_iff] at bare
    obtain ⟨⟨_, noTimestamp⟩, noContext⟩ := bare
    refine ⟨.message, ?_⟩
    rintro (newline | newline | ⟨member, _⟩)
    · rw [noTimestamp] at newline
      cases newline
    · exact newline
    · rw [noContext] at member
      cases member
  · rw [display, if_neg bare]
    simp only [String.toList_append, List.mem_append,
      newline_mem_displayTimestamp, newline_mem_wrap style, tag,
      newline_mem_displayContext]
    constructor
    · rintro ((((newline | tagged) | blank) | newline) | ⟨_, member, newline⟩)
      · exact .timestamp newline
      · exact tagged.elim
      · exact absurd blank (by decide)
      · exact .message newline
      · exact .context member newline
    · rintro (newline | newline | ⟨member, newline⟩)
      · simp [newline]
      · simp [newline]
      · exact .inr ⟨_, member, newline⟩

end Record

namespace Logfmt

theorem quotedBody?_eq_some {text body after : List Char}
    (found : quotedBody? text = some (body, after)) :
    text = body ++ '"' :: after := by
  fun_induction quotedBody? text generalizing body after with
  | case1 | case3 | case5 => cases found
  | case2 rest =>
      cases found
      rfl
  | case4 escaped rest _ ih | case6 escaped rest _ _ _ _ ih =>
      obtain ⟨⟨inner, _⟩, inside, same⟩ := Option.map_eq_some_iff.mp found
      cases same
      rw [ih inside]
      rfl

theorem rawValue_append (text : List Char) :
    (rawValue text).1 ++ (rawValue text).2 = text := by
  have bare (text : List Char) : (bareRun text).1 ++ (bareRun text).2 = text :=
    List.takeWhile_append_dropWhile
  unfold rawValue
  split
  · split
    · rename_i found
      rw [quotedBody?_eq_some found]
      simp
    · exact bare _
  · exact bare _

theorem dropEscapeBefore_sublist (escaped : Char) (text : List Char) :
    (dropEscapeBefore escaped text).Sublist text := by
  fun_induction dropEscapeBefore escaped text with
  | case1 => exact List.Sublist.refl _
  | case2 => exact List.Sublist.refl _
  | case3 first second rest drops ih =>
      rw [drops.2]
      exact (ih.cons_cons escaped).cons first
  | case4 first second rest _ ih => exact ih.cons_cons first

theorem valueOf_sublist (raw : List Char) : (valueOf raw).Sublist raw := by
  unfold valueOf
  split
  · rename_i inside quoted
    have whole : inside.Sublist raw := by
      unfold unquoted? at quoted
      split at quoted
      · split at quoted
        · cases quoted
          exact (List.dropLast_sublist _).cons _
        · cases quoted
      · cases quoted
    exact (dropEscapeBefore_sublist _ _).trans
      ((dropEscapeBefore_sublist _ _).trans whole)
  · exact List.Sublist.refl raw

theorem pairsFrom_sublist {text : List Char} {pair : List Char × List Char}
    (found : pair ∈ pairsFrom text) :
    pair.1.Sublist text ∧ pair.2.Sublist text := by
  fun_induction pairsFrom text with
  | case1 => cases found
  | case2 first rest starts key value remaining ih =>
      have parts := rawValue_append value
      have behind : value.Sublist (first :: rest) := by
        have dropped := List.dropWhile_sublist (l := rest) isKeyPart
        rw [remaining] at dropped
        exact ((List.sublist_cons_self '=' value).trans dropped).cons first
      rcases List.mem_cons.mp found with rfl | later
      · refine ⟨(List.takeWhile_sublist _).cons_cons first, ?_⟩
        exact (parts ▸ List.sublist_append_left _ _).trans behind
      · have onward : (rawValue value).2.Sublist (first :: rest) :=
          (parts ▸ List.sublist_append_right _ _).trans behind
        exact (ih later).imp (·.trans onward) (·.trans onward)
  | case3 first rest starts _ ih =>
      have onward : (rest.dropWhile isKeyPart).Sublist (first :: rest) :=
        (List.dropWhile_sublist _).cons first
      exact (ih found).imp (·.trans onward) (·.trans onward)
  | case4 first rest starts ih =>
      exact (ih found).imp (·.cons first) (·.cons first)

theorem pairs_sublist {text : List Char} {pair : String × String}
    (found : pair ∈ pairs text) :
    pair.1.toList.Sublist text ∧ pair.2.toList.Sublist text := by
  obtain ⟨written, member, rfl⟩ := List.mem_map.mp found
  obtain ⟨key, raw⟩ := pairsFrom_sublist member
  simp only [String.toList_ofList]
  exact ⟨key, (valueOf_sublist _).trans raw⟩

end Logfmt

namespace FieldKeys

theorem newline_mem_getD {text? : Option String} :
    '\n' ∈ (text?.getD "").toList ↔
      ∃ text, text? = some text ∧ '\n' ∈ text.toList := by
  cases text? with
  | none => simp
  | some text => simp

theorem mem_contextOf {keys : FieldKeys} {pairs : List (String × String)}
    {fragment : String} :
    fragment ∈ keys.contextOf pairs ↔ ∃ pair ∈ pairs,
      pair.1 ∉ keys.all ∧ (fragment = pair.1 ∨ fragment = pair.2) := by
  simp [contextOf, and_assoc]

theorem exists_newline_of_lastValue? {names : List String}
    {pairs : List (String × String)}
    (last : ∃ text, lastValue? names pairs = some text ∧
      '\n' ∈ text.toList) :
    ∃ pair ∈ pairs, '\n' ∈ pair.1.toList ∨ '\n' ∈ pair.2.toList := by
  obtain ⟨_, last, newline⟩ := last
  obtain ⟨pair, found, rfl⟩ := Option.map_eq_some_iff.mp last
  exact ⟨pair, (List.mem_filter.mp (List.mem_of_getLast? found)).1, .inr newline⟩

/-- Only the last timestamp, the last message and the pairs of the context can
break the line. -/
theorem breaks_record_iff {keys : FieldKeys} {position : Nat}
    {pairs : List (String × String)} :
    (keys.record position pairs).Breaks ↔
      (∃ text, lastValue? keys.timestamp pairs = some text ∧
        '\n' ∈ text.toList) ∨
      (∃ text, lastValue? keys.message pairs = some text ∧
        '\n' ∈ text.toList) ∨
      ∃ pair ∈ pairs, pair.1 ∉ keys.all ∧
        ('\n' ∈ pair.1.toList ∨ '\n' ∈ pair.2.toList) := by
  constructor
  · rintro (newline | newline | ⟨member, newline⟩)
    · exact .inl (newline_mem_getD.mp newline)
    · exact .inr (.inl (newline_mem_getD.mp newline))
    · obtain ⟨pair, found, other, same⟩ := mem_contextOf.mp member
      refine .inr (.inr ⟨pair, found, other, ?_⟩)
      rcases same with rfl | rfl
      · exact .inl newline
      · exact .inr newline
  · rintro (last | last | ⟨pair, found, other, newline | newline⟩)
    · exact .timestamp (newline_mem_getD.mpr last)
    · exact .message (newline_mem_getD.mpr last)
    · exact .context (mem_contextOf.mpr ⟨pair, found, other, .inl rfl⟩) newline
    · exact .context (mem_contextOf.mpr ⟨pair, found, other, .inr rfl⟩) newline

theorem exists_newline_of_breaks {keys : FieldKeys} {position : Nat}
    {pairs : List (String × String)}
    (breaks : (keys.record position pairs).Breaks) :
    ∃ pair ∈ pairs, '\n' ∈ pair.1.toList ∨ '\n' ∈ pair.2.toList := by
  rcases breaks_record_iff.mp breaks with last | last | ⟨pair, found, _, newline⟩
  · exact exists_newline_of_lastValue? last
  · exact exists_newline_of_lastValue? last
  · exact ⟨pair, found, newline⟩

end FieldKeys

namespace Record

/-- The value of the last member with one of the names. -/
def lastMember? (names : List String)
    (members : List (List Char × Json.Value)) : Option Json.Value :=
  (members.filter (String.ofList ·.1 ∈ names)).getLast?.map (·.2)

/-- A string of an object that has a newline becomes a text of the record: the
last timestamp, the last message, or the key or the value of a member that names
no field. -/
inductive BreaksLine (members : List (List Char × Json.Value)) : Prop
  | timestamp {text : List Char}
      (last : lastMember? memberKeys.timestamp members = some (.string text))
      (newline : '\n' ∈ text)
  | message {text : List Char}
      (last : lastMember? memberKeys.message members = some (.string text))
      (newline : '\n' ∈ text)
  | key {key : List Char} {value : Json.Value}
      (member : (key, value) ∈ members)
      (other : String.ofList key ∉ memberKeys.all) (newline : '\n' ∈ key)
  | value {key text : List Char} (member : (key, .string text) ∈ members)
      (other : String.ofList key ∉ memberKeys.all) (newline : '\n' ∈ text)

theorem newline_mem_memberText {value : Json.Value} :
    '\n' ∈ memberText value ↔ ∃ text, value = .string text ∧ '\n' ∈ text := by
  have compact := (Json.Value.uncontrolled_compact value).newline_not_mem
  cases value with
  | string text => simp [memberText]
  | null | bool | integer | double | array | object => simpa [memberText]

theorem lastValue?_memberPairs (names : List String)
    (members : List (List Char × Json.Value)) :
    FieldKeys.lastValue? names (memberPairs members) =
      (lastMember? names members).map fun value =>
        String.ofList (memberText value) := by
  rw [FieldKeys.lastValue?, memberPairs, List.filter_map, List.getLast?_map,
    lastMember?, Option.map_map, Option.map_map]
  rfl

theorem newline_lastValue? {names : List String}
    {members : List (List Char × Json.Value)} :
    (∃ text, FieldKeys.lastValue? names (memberPairs members) = some text ∧
        '\n' ∈ text.toList) ↔
      ∃ text, lastMember? names members = some (.string text) ∧
        '\n' ∈ text := by
  rw [lastValue?_memberPairs]
  cases lastMember? names members with
  | none => simp
  | some value => simp [newline_mem_memberText]

theorem breaks_ofMembers_iff {position : Nat}
    {members : List (List Char × Json.Value)} :
    (ofMembers position members).Breaks ↔ BreaksLine members := by
  rw [ofMembers_eq, FieldKeys.breaks_record_iff, newline_lastValue?,
    newline_lastValue?]
  constructor
  · rintro (⟨_, last, newline⟩ | ⟨_, last, newline⟩ | ⟨_, found, other, newline⟩)
    · exact .timestamp last newline
    · exact .message last newline
    · obtain ⟨⟨key, value⟩, member, rfl⟩ := List.mem_map.mp found
      simp only [String.toList_ofList, newline_mem_memberText] at newline
      rcases newline with newline | ⟨_, rfl, newline⟩
      · exact .key member other newline
      · exact .value member other newline
  · rintro (⟨last, newline⟩ | ⟨last, newline⟩ | ⟨member, other, newline⟩ |
      ⟨member, other, newline⟩)
    · exact .inl ⟨_, last, newline⟩
    · exact .inr (.inl ⟨_, last, newline⟩)
    · refine .inr (.inr ⟨_, List.mem_map.mpr ⟨_, member, rfl⟩, other, .inl ?_⟩)
      simpa using newline
    · refine .inr (.inr ⟨_, List.mem_map.mpr ⟨_, member, rfl⟩, other, .inr ?_⟩)
      simpa [memberText] using newline

theorem not_breaks_of_no_object {position : Nat} {line : String}
    (single : '\n' ∉ line.toList)
    (noObject : ∀ members, Json.Value.parse? (Text.trim line.toList) ≠
      some (.object members)) :
    ¬(parseLine position line).Breaks := by
  have noMembers : ofJson? position (Text.trim line.toList) = none := by
    unfold ofJson?
    split
    · split
      · rename_i members object
        exact (noObject members object).elim
      · rfl
    · rfl
  have trimmed : (Text.trim line.toList).Sublist line.toList :=
    (Text.trim_prefix _).sublist.trans (List.dropWhile_sublist _)
  intro breaks
  rw [parseLine, ofLine] at breaks
  simp only [noMembers, Logfmt.record?_eq] at breaks
  split at breaks
  · rename_i record structured
    split at structured
    · cases structured
      obtain ⟨pair, found, newline⟩ := FieldKeys.exists_newline_of_breaks breaks
      obtain ⟨key, value⟩ := Logfmt.pairs_sublist found
      rcases newline with newline | newline
      · exact single (trimmed.subset (key.subset newline))
      · exact single (trimmed.subset (value.subset newline))
    · cases structured
  · rcases breaks with newline | newline | ⟨member, _⟩
    · cases newline
    · rw [ofPlain, String.toList_ofList] at newline
      exact single ((Text.AnsiEscape.strip_sublist _).subset newline)
    · cases member

/-- One line of the log is displayed on several lines exactly if it is an object
and one of its strings that become texts of the record has a newline. -/
theorem newline_mem_display_parseLine_iff {line : String}
    (single : '\n' ∉ line.toList) (position : Nat) (styling : Styling) :
    '\n' ∈ ((parseLine position line).display styling).toList ↔
      ∃ members, Json.Value.parse? (Text.trim line.toList) =
        some (.object members) ∧ BreaksLine members := by
  rw [newline_mem_display_iff]
  constructor
  · intro breaks
    by_contra none
    apply not_breaks_of_no_object single _ breaks
    intro members object
    rw [parseLine_of_object object, breaks_ofMembers_iff] at breaks
    exact none ⟨members, object, breaks⟩
  · rintro ⟨members, object, breaks⟩
    rw [parseLine_of_object object, breaks_ofMembers_iff]
    exact breaks

/-- Newlines of a severity, of a timestamp that another one follows, and inside
of a list are not displayed, or as escapes. -/
theorem single_line_of_hidden_newlines :
    let line := "\x7b\"level\":\"warn\\n\",\"t\":\"\\n\"," ++
      "\"ts\":\"9\",\"a\":[\"\\n\"]\x7d"
    '\n' ∉ line.toList ∧
      ¬∃ members, Json.Value.parse? (Text.trim line.toList) =
        some (.object members) ∧ BreaksLine members := by
  intro line
  have single : '\n' ∉ line.toList := by decide +kernel
  refine ⟨single, ?_⟩
  rw [← newline_mem_display_parseLine_iff single 0 .styled]
  decide +kernel

/-- An escaped newline in a message. -/
theorem line_broken_by_message :
    let line := "\x7b\"msg\":\"up\\n9 CRIT  down\"\x7d"
    '\n' ∉ line.toList ∧
      (parseLine 0 line).display .plain = "up\n9 CRIT  down" := by
  decide +kernel

end Record
end LogPager
