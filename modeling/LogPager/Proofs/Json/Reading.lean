import LogPager.Json.Value

/-!
# Reading compact texts

Compact texts are read as the trees they are written from, piece by piece and
whatever follows.  A string is read up to its closing quote.  A number goes on
as long as its characters do, so what follows must not go on a number: in a
compact text it is a comma, a closing bracket or nothing.
-/

namespace LogPager.Json

theorem joinUnits?_escaped {code : Nat} (plain : code < 0xD800)
    (units : List StringUnit) :
    joinUnits? (.escaped code :: units) =
      (joinUnits? units).map (Char.ofNat code :: ·) := by
  have high : isHighSurrogate code = false := by
    simp only [isHighSurrogate, Bool.and_eq_false_iff, decide_eq_false_iff_not]
    omega
  have low : isLowSurrogate code = false := by
    simp only [isLowSurrogate, Bool.and_eq_false_iff, decide_eq_false_iff_not]
    omega
  cases units with
  | nil => simp [joinUnits?, high, low]
  | cons next rest => cases next <;> simp [joinUnits?, high, low]

theorem hexCode?_hexDigit {code : Nat} (control : code < 0x20) :
    hexCode? '0' '0' (hexDigit (code / 16)) (hexDigit (code % 16)) =
      some code := by
  revert code
  decide

/-- A character that is written inside a string is read as one unit, and this
stands for the character. -/
theorem exists_unit (character : Char) : ∃ unit,
    (∀ more, readUnits? (escapeCharacter character ++ more) =
      (readUnits? more).map fun (units, after) => (unit :: units, after)) ∧
    ∀ units, joinUnits? (unit :: units) =
      (joinUnits? units).map (character :: ·) := by
  fun_cases escapeCharacter character with
  | case8 character control =>
      refine ⟨.escaped character.toNat, ?_, ?_⟩
      · intro more
        rw [if_pos control]
        simp only [List.cons_append, List.nil_append, readUnits?,
          hexCode?_hexDigit control]
        exact Option.map_eq_bind.symm
      · intro units
        have plain : character.toNat < 0xD800 := by omega
        rw [joinUnits?_escaped plain, Char.ofNat_toNat]
  | case9 character printed notQuote notBackslash =>
      refine ⟨.plain character, ?_, fun units => rfl⟩
      intro more
      have passes : ¬(character.toNat < 0x20 ∨ character = '\\') :=
        not_or.mpr ⟨printed, notBackslash⟩
      rw [if_neg printed, List.singleton_append, readUnits?, if_neg passes]
      · exact Option.map_eq_bind.symm
      · exact notQuote
      · intro _ _ _ _ _ escapes
        exact (notBackslash escapes).elim
      · intro _ _ escapes
        exact (notBackslash escapes).elim
  | case1 | case2 | case3 | case4 | case5 | case6 | case7 =>
      refine ⟨.plain _, ?_, fun units => rfl⟩
      intro more
      exact Option.map_eq_bind.symm

theorem exists_units (text rest : List Char) : ∃ units,
    readUnits? (text.flatMap escapeCharacter ++ '"' :: rest) =
      some (units, rest) ∧
    joinUnits? units = some text := by
  induction text with
  | nil => exact ⟨[], rfl, rfl⟩
  | cons character text ih =>
      obtain ⟨units, read, joined⟩ := ih
      obtain ⟨unit, readOne, joinedOne⟩ := exists_unit character
      refine ⟨unit :: units, ?_, ?_⟩
      · rw [List.flatMap_cons, List.append_assoc, readOne, read]
        rfl
      · rw [joinedOne, joined]
        rfl

/-- A string is read up to its closing quote. -/
theorem readString?_quoted (text rest : List Char) :
    readString? (text.flatMap escapeCharacter ++ '"' :: rest) =
      some (some text, rest) := by
  obtain ⟨units, read, joined⟩ := exists_units text rest
  rw [readString?, read, ← joined]
  rfl

/-- A text that does not go on a number: nothing, or a separator. -/
def EndsValue (text : List Char) : Prop :=
  ∀ character, text.head? = some character → character ∈ [',', ']', '\x7d']

theorem digitsValue_toDigits (value : Nat) :
    digitsValue (Nat.toDigits 10 value) = value := by
  calc
    digitsValue (Nat.toDigits 10 value) =
        Nat.ofDigitChars 10 (Nat.toDigits 10 value) 0 :=
      Nat.ofDigitChars_eq_foldl.symm
    _ = value := Nat.ofDigitChars_ten_toDigits

theorem head?_toDigits_of_pos {value : Nat} (positive : 0 < value) :
    (Nat.toDigits 10 value).head? ≠ some '0' := by
  induction value using Nat.strongRecOn with
  | ind value ih =>
      by_cases single : value < 10
      · have digits : ∀ digit < 10, 0 < digit →
            [Nat.digitChar digit].head? ≠ some '0' := by decide
        rw [Nat.toDigits_of_lt_base single]
        exact digits value single positive
      · have leading := ih (value / 10) (by omega) (by omega)
        obtain ⟨digit, digits, written⟩ :=
          List.exists_cons_of_ne_nil (@Nat.toDigits_ne_nil (value / 10) 10)
        rw [written] at leading
        rw [Nat.toDigits_of_base_le (by omega) (by omega), written]
        exact leading

theorem toDigits_ne_zero_cons (value : Nat) (next : Char) (rest : List Char) :
    Nat.toDigits 10 value ≠ '0' :: next :: rest := by
  intro digits
  rcases Nat.eq_zero_or_pos value with rfl | positive
  · rw [Nat.toDigits_zero] at digits
    cases digits
  · apply head?_toDigits_of_pos positive
    rw [digits]
    rfl

theorem EndsValue.eq_of_cons {first : Char} {rest : List Char}
    (ends : EndsValue (first :: rest)) :
    first = ',' ∨ first = ']' ∨ first = '\x7d' := by
  simpa using ends first rfl

theorem readDigitRun?_append {digits rest : List Char} (some : digits ≠ [])
    (all : ∀ character ∈ digits, character.isDigit = true)
    (ends : EndsValue rest) :
    readDigitRun? (digits ++ rest) = .some (digits, rest) := by
  have stops : rest.takeWhile Char.isDigit = [] ∧
      rest.dropWhile Char.isDigit = rest := by
    cases rest with
    | nil => exact ⟨rfl, rfl⟩
    | cons first rest =>
        have nondigit : first.isDigit = false := by
          rcases ends.eq_of_cons with rfl | rfl | rfl <;> rfl
        simp [nondigit]
  have taken : (digits ++ rest).takeWhile Char.isDigit = digits := by
    rw [List.takeWhile_append_of_pos all, stops.1, List.append_nil]
  have left : (digits ++ rest).dropWhile Char.isDigit = rest := by
    rw [List.dropWhile_append_of_pos all, stops.2]
  rw [readDigitRun?, taken, left]
  cases digits with
  | nil => exact (some rfl).elim
  | cons digit digits => rfl

theorem EndsValue.readFraction? {rest : List Char} (ends : EndsValue rest) :
    Json.readFraction? rest = some (none, rest) := by
  cases rest with
  | nil => rfl
  | cons first rest => rcases ends.eq_of_cons with rfl | rfl | rfl <;> rfl

theorem EndsValue.readExponent? {rest : List Char} (ends : EndsValue rest) :
    Json.readExponent? rest = some (none, rest) := by
  cases rest with
  | nil => rfl
  | cons first rest => rcases ends.eq_of_cons with rfl | rfl | rfl <;> rfl

/-- A whole number as it is written. -/
def wordLiteral (value : Nat) : NumberLiteral :=
  { negative := false
    whole := Nat.toDigits 10 value
    fraction := none
    exponent := none }

theorem isDigit_of_mem_toDigits (value : Nat) :
    ∀ character ∈ Nat.toDigits 10 value, character.isDigit = true :=
  fun _ member => Nat.isDigit_of_mem_toDigits (by decide) (by decide) member

theorem exists_toDigits_eq_cons (value : Nat) :
    ∃ digit digits, Nat.toDigits 10 value = digit :: digits ∧
      digit.isDigit = true := by
  obtain ⟨digit, digits, written⟩ :=
    List.exists_cons_of_ne_nil (@Nat.toDigits_ne_nil value 10)
  refine ⟨digit, digits, written, isDigit_of_mem_toDigits value digit ?_⟩
  rw [written]
  exact List.mem_cons_self

theorem readNumber?_toDigits (value : Nat) {rest : List Char}
    (ends : EndsValue rest) :
    readNumber? (Nat.toDigits 10 value ++ rest) =
      some (wordLiteral value, rest) := by
  have run := readDigitRun?_append Nat.toDigits_ne_nil
    (isDigit_of_mem_toDigits value) ends
  have whole : readWhole? (Nat.toDigits 10 value ++ rest) =
      some (Nat.toDigits 10 value, rest) := by
    rw [readWhole?, run]
    split
    · rename_i zero
      simp only [Option.some.injEq, Prod.mk.injEq] at zero
      exact (toDigits_ne_zero_cons value _ _ zero.1).elim
    · rfl
  obtain ⟨digit, digits, written, isDigit⟩ := exists_toDigits_eq_cons value
  have unsigned : digit ≠ '-' := by
    rintro rfl
    cases isDigit
  rw [written, List.cons_append] at whole
  rw [wordLiteral, written]
  simp [readNumber?, unsigned, whole, ends.readFraction?, ends.readExponent?]

theorem EndsValue.nil : EndsValue [] := nofun

theorem EndsValue.cons {first : Char}
    (separator : first ∈ [',', ']', '\x7d']) (rest : List Char) :
    EndsValue (first :: rest) := by
  rintro character ⟨⟩
  exact separator

/-- A text that begins with neither a space nor a closing bracket and, given
enough depth, is read as a tree, whatever comes after the value. -/
structure Reads (text : List Char) (tree : Tree) : Prop where
  begins : ∃ first more, text = first :: more ∧ isSpace first = false ∧
    first ≠ ']'
  read : ∀ depth rest, text.length ≤ depth → EndsValue rest →
    readValue? (depth + 1) (text ++ rest) = some (tree, rest)

theorem Reads.parse? {text : List Char} {tree : Tree}
    (reads : Reads text tree) : Tree.parse? text = some tree := by
  have whole := reads.read text.length [] (Nat.le_refl _) .nil
  rw [List.append_nil] at whole
  rw [Tree.parse?, whole]
  rfl

theorem reads_null : Reads "null".toList .null := by
  constructor
  · exact ⟨'n', _, rfl, rfl, by decide⟩
  · intro depth rest _ _
    rfl

theorem reads_bool (value : Bool) :
    Reads (if value then "true".toList else "false".toList) (.bool value) := by
  cases value with
  | true =>
      constructor
      · exact ⟨'t', _, rfl, rfl, by decide⟩
      · intro depth rest _ _
        rfl
  | false =>
      constructor
      · exact ⟨'f', _, rfl, rfl, by decide⟩
      · intro depth rest _ _
        rfl

theorem quote_append (text rest : List Char) :
    quote text ++ rest =
      '"' :: (text.flatMap escapeCharacter ++ '"' :: rest) := by
  simp [quote]

theorem readValue?_opening_quote (depth : Nat) (inside : List Char) :
    readValue? (depth + 1) ('"' :: inside) =
      (readString? inside).map fun (text, after) => (.string text, after) :=
  rfl

theorem reads_quote (text : List Char) :
    Reads (quote text) (.string (some text)) := by
  constructor
  · exact ⟨'"', _, rfl, rfl, by decide⟩
  · intro depth rest _ _
    rw [quote_append, readValue?_opening_quote, readString?_quoted]
    rfl

theorem isSpace_of_isDigit {character : Char}
    (isDigit : character.isDigit = true) : isSpace character = false := by
  rw [← Bool.not_eq_true]
  intro space
  simp only [isSpace, Bool.or_eq_true, beq_iff_eq] at space
  rcases space with ((rfl | rfl) | rfl) | rfl <;> cases isDigit

theorem skipSpaces_cons {first : Char} (solid : isSpace first = false)
    (rest : List Char) : skipSpaces (first :: rest) = first :: rest := by
  simp [skipSpaces, solid]

theorem readValue?_of_isDigit {digit : Char} (isDigit : digit.isDigit = true)
    (depth : Nat) (rest : List Char) :
    readValue? (depth + 1) (digit :: rest) =
      (readNumber? (digit :: rest)).map fun (literal, after) =>
        (.number literal, after) := by
  rw [readValue?, skipSpaces_cons (isSpace_of_isDigit isDigit)]
  split
  case h_7 => rfl
  -- No digit begins one of the other values.
  all_goals
    rename_i other
    cases other
    cases isDigit

theorem reads_toDigits (value : Nat) :
    Reads (Nat.toDigits 10 value) (.number (wordLiteral value)) := by
  obtain ⟨digit, digits, written, isDigit⟩ := exists_toDigits_eq_cons value
  constructor
  · refine ⟨digit, digits, written, isSpace_of_isDigit isDigit, ?_⟩
    rintro rfl
    cases isDigit
  · intro depth rest _ ends
    have number := readNumber?_toDigits value ends
    rw [written, List.cons_append] at number ⊢
    rw [readValue?_of_isDigit isDigit, number]
    rfl

section

variable {α : Type} {write : α → List Char} {value : α → Tree}

theorem Reads.readItems? {text : List Char} {tree : Tree}
    (reads : Reads text tree) {depth : Nat} (enough : text.length < depth)
    {rest : List Char} (ends : EndsValue rest) :
    Json.readItems? (depth + 1) (text ++ rest) =
      match skipSpaces rest with
      | ']' :: after => some ([tree], after)
      | ',' :: more => (Json.readItems? depth more).map fun (items, after) =>
          (tree :: items, after)
      | _ => none := by
  obtain ⟨depth, rfl⟩ := Nat.exists_eq_add_one_of_ne_zero (Nat.ne_zero_of_lt enough)
  rw [Json.readItems?, reads.read depth rest (Nat.le_of_lt_succ enough) ends]
  simp only [Option.map_eq_bind]
  rfl

theorem readItems?_commaSeparated (item : α) (items : List α)
    (reads : ∀ other ∈ item :: items, Reads (write other) (value other))
    {depth : Nat} (rest : List Char)
    (enough : (commaSeparated ((item :: items).map write)).length < depth) :
    readItems? (depth + 1)
        (commaSeparated ((item :: items).map write) ++ ']' :: rest) =
      some ((item :: items).map value, rest) := by
  induction items generalizing item depth with
  | nil =>
      have last := reads item List.mem_cons_self
      exact last.readItems? enough (.cons (by decide) rest)
  | cons next items ih =>
      have first := reads item List.mem_cons_self
      have later : ∀ other ∈ next :: items, Reads (write other) (value other) :=
        fun other member => reads other (List.mem_cons_of_mem _ member)
      have split : commaSeparated ((item :: next :: items).map write) =
          write item ++ ',' :: commaSeparated ((next :: items).map write) := rfl
      rw [split, List.length_append, List.length_cons] at enough
      obtain ⟨depth, rfl⟩ :=
        Nat.exists_eq_add_one_of_ne_zero (Nat.ne_zero_of_lt enough)
      have fits : (commaSeparated ((next :: items).map write)).length < depth := by
        omega
      rw [split, List.append_assoc, List.cons_append]
      calc
        _ = (readItems? (depth + 1)
              (commaSeparated ((next :: items).map write) ++ ']' :: rest)).map
                fun (items, after) => (value item :: items, after) :=
          first.readItems? (by omega) (.cons (by decide) _)
        _ = some ((item :: next :: items).map value, rest) := by
          rw [ih next later fits]
          rfl

theorem readValue?_opening_bracket (depth : Nat) (inside : List Char) :
    readValue? (depth + 1) ('[' :: inside) =
      match skipSpaces inside with
      | ']' :: after => some (.array [], after)
      | inside => (readItems? depth inside).map fun (items, after) =>
          (.array items, after) :=
  rfl

theorem readValue?_bracket {first : Char} (solid : isSpace first = false)
    (unclosed : first ≠ ']') (depth : Nat) (more : List Char) :
    readValue? (depth + 1) ('[' :: first :: more) =
      (readItems? depth (first :: more)).map fun (items, after) =>
        (.array items, after) := by
  rw [readValue?_opening_bracket, skipSpaces_cons solid]
  split
  · rename_i closed
    cases closed
    exact (unclosed rfl).elim
  · rfl

theorem begins_commaSeparated (first : Char) (more : List Char)
    (texts : List (List Char)) :
    ∃ after, commaSeparated ((first :: more) :: texts) = first :: after := by
  cases texts with
  | nil => exact ⟨more, rfl⟩
  | cons next texts => exact ⟨_, rfl⟩

/-- An array of items of which each is read as it is written. -/
theorem reads_bracketed {items : List α}
    (reads : ∀ item ∈ items, Reads (write item) (value item)) :
    Reads (bracketed (items.map write)) (.array (items.map value)) := by
  constructor
  · exact ⟨'[', _, rfl, rfl, by decide⟩
  · intro depth rest enough _
    have opened : bracketed (items.map write) ++ rest =
        '[' :: (commaSeparated (items.map write) ++ ']' :: rest) := by
      simp [bracketed]
    rw [opened]
    cases items with
    | nil => rfl
    | cons item items =>
        obtain ⟨first, more, written, solid, unclosed⟩ :=
          (reads item List.mem_cons_self).begins
        have fits : (commaSeparated ((item :: items).map write)).length + 2 ≤
            depth := by
          simp only [bracketed, List.length_append, List.length_cons,
            List.length_nil] at enough
          omega
        obtain ⟨depth, rfl⟩ :=
          Nat.exists_eq_add_one_of_ne_zero (by omega : depth ≠ 0)
        have inside := readItems?_commaSeparated item items reads rest
          (by omega : _ < depth)
        obtain ⟨after, begins⟩ :=
          begins_commaSeparated first more (items.map write)
        rw [List.map_cons, written, begins, List.cons_append] at inside ⊢
        rw [readValue?_bracket solid unclosed, inside]
        rfl

end

/-- A member of an object: its key, and the text and the tree of its value. -/
structure Entry where
  key : List Char
  text : List Char
  tree : Tree

namespace Entry

def written (entry : Entry) : List Char :=
  keyed entry.key entry.text

def node (entry : Entry) : Option (List Char) × Tree :=
  (some entry.key, entry.tree)

theorem length_lt_written (entry : Entry) :
    entry.text.length < entry.written.length := by
  simp only [written, keyed, List.length_append, List.length_cons]
  omega

theorem readMembers?_written {entry : Entry}
    (reads : Reads entry.text entry.tree) {depth : Nat}
    (enough : entry.written.length ≤ depth) {rest : List Char}
    (ends : EndsValue rest) :
    readMembers? (depth + 1) (entry.written ++ rest) =
      match skipSpaces rest with
      | '\x7d' :: after => some ([entry.node], after)
      | ',' :: more => (readMembers? depth more).map fun (members, after) =>
          (entry.node :: members, after)
      | _ => none := by
  have shorter := Nat.lt_of_lt_of_le entry.length_lt_written enough
  obtain ⟨depth, rfl⟩ :=
    Nat.exists_eq_add_one_of_ne_zero (Nat.ne_zero_of_lt shorter)
  have opened : entry.written ++ rest =
      '"' :: (entry.key.flatMap escapeCharacter ++
        '"' :: ':' :: (entry.text ++ rest)) := by
    simp [written, keyed, quote]
  have value := reads.read depth rest (Nat.le_of_lt_succ shorter) ends
  rw [opened, readMembers?, skipSpaces_cons (by rfl)]
  simp only [readString?_quoted, Option.map_eq_bind]
  change (readValue? (depth + 1) (entry.text ++ rest)).bind _ = _
  rw [value]
  rfl

theorem readMembers?_commaSeparated (entry : Entry) (entries : List Entry)
    (reads : ∀ other ∈ entry :: entries, Reads other.text other.tree)
    {depth : Nat} (rest : List Char)
    (enough : (commaSeparated ((entry :: entries).map written)).length ≤ depth) :
    readMembers? (depth + 1)
        (commaSeparated ((entry :: entries).map written) ++ '\x7d' :: rest) =
      some ((entry :: entries).map node, rest) := by
  induction entries generalizing entry depth with
  | nil =>
      have last := reads entry List.mem_cons_self
      exact readMembers?_written last enough (.cons (by decide) rest)
  | cons next entries ih =>
      have first := reads entry List.mem_cons_self
      have later : ∀ other ∈ next :: entries, Reads other.text other.tree :=
        fun other member => reads other (List.mem_cons_of_mem _ member)
      have split : commaSeparated ((entry :: next :: entries).map written) =
          entry.written ++
            ',' :: commaSeparated ((next :: entries).map written) := rfl
      rw [split, List.length_append, List.length_cons] at enough
      obtain ⟨depth, rfl⟩ :=
        Nat.exists_eq_add_one_of_ne_zero (by omega : depth ≠ 0)
      rw [split, List.append_assoc, List.cons_append]
      calc
        _ = (readMembers? (depth + 1)
              (commaSeparated ((next :: entries).map written) ++
                '\x7d' :: rest)).map
                  fun (members, after) => (entry.node :: members, after) :=
          readMembers?_written first (by omega) (.cons (by decide) _)
        _ = some ((entry :: next :: entries).map node, rest) := by
          rw [ih next later (by omega)]
          rfl

end Entry

/-- An object of members of which each value is read as it is written. -/
theorem reads_braced {entries : List Entry}
    (reads : ∀ entry ∈ entries, Reads entry.text entry.tree) :
    Reads (braced (entries.map Entry.written))
      (.object (entries.map Entry.node)) := by
  constructor
  · exact ⟨'\x7b', _, rfl, rfl, by decide⟩
  · intro depth rest enough _
    have opened : braced (entries.map Entry.written) ++ rest =
        '\x7b' :: (commaSeparated (entries.map Entry.written) ++
          '\x7d' :: rest) := by
      simp [braced]
    rw [opened]
    cases entries with
    | nil => rfl
    | cons entry entries =>
        have fits : (commaSeparated
            ((entry :: entries).map Entry.written)).length + 2 ≤ depth := by
          simp only [braced, List.length_append, List.length_cons,
            List.length_nil] at enough
          omega
        obtain ⟨depth, rfl⟩ :=
          Nat.exists_eq_add_one_of_ne_zero (by omega : depth ≠ 0)
        have inside := Entry.readMembers?_commaSeparated entry entries reads rest
          (by omega : _ ≤ depth)
        obtain ⟨after, begins⟩ := begins_commaSeparated '"'
          (entry.key.flatMap escapeCharacter ++ ['"'] ++ ':' :: entry.text)
          (entries.map Entry.written)
        have quoted : commaSeparated ((entry :: entries).map Entry.written) =
            '"' :: after := begins
        have braced : ∀ more, readValue? (depth + 2) ('\x7b' :: '"' :: more) =
            (readMembers? (depth + 1) ('"' :: more)).map
              fun (members, after) => (.object members, after) := fun _ => rfl
        rw [quoted, List.cons_append] at inside ⊢
        rw [braced, inside]
        rfl

end LogPager.Json
