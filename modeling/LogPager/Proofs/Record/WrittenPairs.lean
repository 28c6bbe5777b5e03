import LogPager.Proofs.Record.Fields

/-!
# Pairs are read as they were written

A pair is written as its key, an equals sign and its value between quotes, with
a backslash before every backslash and every quote of the value.  Pairs with a
blank between them are read back as they were, whatever the values hold.  The
record of such a line takes the last value for each of its fields and the other
pairs as context.
-/

namespace LogPager

namespace Text

theorem trim_eq_self {first last : Char} {text : List Char}
    (begins : text.head? = some first) (ends : text.getLast? = some last)
    (solidFirst : isBlank first = false) (solidLast : isBlank last = false) :
    trim text = text := by
  obtain ⟨rest, rfl⟩ := List.head?_eq_some_iff.mp begins
  obtain ⟨front, split⟩ := List.getLast?_eq_some_iff.mp ends
  have kept : (first :: rest).dropWhile isBlank = first :: rest :=
    List.dropWhile_cons_of_neg (by simp [solidFirst])
  rw [trim, kept, split, trimEndWhere, List.reverse_append,
    List.reverse_singleton, List.singleton_append,
    List.dropWhile_cons_of_neg (by simp [solidLast]), List.reverse_cons,
    List.reverse_reverse]

end Text

namespace Logfmt

/-- A key is a character that may begin one and any number that may follow. -/
def isKey (key : String) : Bool :=
  match key.toList with
  | [] => false
  | first :: rest => isKeyStart first && rest.all isKeyPart

/-- The text with a backslash before every backslash and every quote. -/
def escape (value : List Char) : List Char :=
  value.flatMap fun character =>
    if character = '\\' ∨ character = '"' then ['\\', character]
    else [character]

/-- A value between quotes. -/
def quote (value : List Char) : List Char :=
  '"' :: escape value ++ ['"']

def writePair (pair : String × String) : List Char :=
  pair.1.toList ++ '=' :: quote pair.2.toList

/-- Pairs in order, with a blank between neighbours. -/
def writePairs : List (String × String) → List Char
  | [] => []
  | [last] => writePair last
  | pair :: rest => writePair pair ++ ' ' :: writePairs rest

/-- A line of pairs. -/
def line (pairs : List (String × String)) : String :=
  String.ofList (writePairs pairs)

example : line [("lvl", "info"), ("msg", "a \"b\" \\")] =
    "lvl=\"info\" msg=\"a \\\"b\\\" \\\\\"" := by
  decide

theorem escape_cons (character : Char) (value : List Char) :
    escape (character :: value) =
      (if character = '\\' ∨ character = '"' then ['\\', character]
        else [character]) ++ escape value :=
  rfl

/-- A value is read up to the quote that closes it. -/
theorem quotedBody?_escape (value after : List Char) :
    quotedBody? (escape value ++ '"' :: after) = some (escape value, after) := by
  induction value with
  | nil => rfl
  | cons character value ih =>
      rw [escape_cons]
      by_cases special : character = '\\' ∨ character = '"'
      · rw [if_pos special]
        rcases special with rfl | rfl <;> simp [quotedBody?, ih]
      · rw [if_neg special]
        obtain ⟨notBackslash, notQuote⟩ := not_or.mp special
        rw [List.singleton_append, List.cons_append, quotedBody?, ih]
        · rfl
        · exact notQuote
        · exact fun _ escapes => (notBackslash escapes).elim
        · exact fun _ _ escapes => (notBackslash escapes).elim
        · exact fun escapes => (notBackslash escapes).elim

theorem rawValue_quote (value after : List Char) :
    rawValue (quote value ++ after) = (quote value, after) := by
  have opened : quote value ++ after = '"' :: (escape value ++ '"' :: after) := by
    simp [quote]
  rw [opened, rawValue, quotedBody?_escape]
  rfl

/-- The text with every backslash twice. -/
def doubleBackslashes (value : List Char) : List Char :=
  value.flatMap fun character =>
    if character = '\\' then ['\\', '\\'] else [character]

theorem head?_escape_ne_quote (value : List Char) :
    (escape value).head? ≠ some '"' := by
  cases value with
  | nil => exact nofun
  | cons character value =>
      rw [escape_cons]
      split
      · simp
      · rename_i plain
        simp [(not_or.mp plain).2]

theorem dropEscapeBefore_cons {escaped first : Char} {rest : List Char}
    (kept : first ≠ '\\' ∨ rest.head? ≠ some escaped) :
    dropEscapeBefore escaped (first :: rest) =
      first :: dropEscapeBefore escaped rest := by
  cases rest with
  | nil => rfl
  | cons second rest =>
      have other : ¬(first = '\\' ∧ second = escaped) := by
        rintro ⟨rfl, rfl⟩
        simp at kept
      rw [dropEscapeBefore, if_neg other]

/-- Once the quotes are free of their backslashes, only the backslashes are
left with theirs. -/
theorem dropEscapeBefore_quote (value : List Char) :
    dropEscapeBefore '"' (escape value) = doubleBackslashes value := by
  induction value with
  | nil => rfl
  | cons character value ih =>
      have next := head?_escape_ne_quote value
      rw [escape_cons]
      by_cases backslash : character = '\\'
      · subst backslash
        -- The second backslash stands before no quote, so both stay.
        have twice : dropEscapeBefore '"' ('\\' :: '\\' :: escape value) =
            '\\' :: '\\' :: dropEscapeBefore '"' (escape value) := by
          rw [dropEscapeBefore_cons (.inr (by simp)),
            dropEscapeBefore_cons (.inr next)]
        simp only [true_or, if_true, List.cons_append, List.nil_append, twice, ih]
        rfl
      · by_cases isQuote : character = '"'
        · subst isQuote
          simp [dropEscapeBefore, ih, doubleBackslashes]
        · rw [if_neg (not_or.mpr ⟨backslash, isQuote⟩), List.singleton_append,
            dropEscapeBefore_cons (.inl backslash), ih]
          simp [doubleBackslashes, backslash]

theorem dropEscapeBefore_backslash (value : List Char) :
    dropEscapeBefore '\\' (doubleBackslashes value) = value := by
  induction value with
  | nil => rfl
  | cons character value ih =>
      have split : doubleBackslashes (character :: value) =
          (if character = '\\' then ['\\', '\\'] else [character]) ++
            doubleBackslashes value := rfl
      rw [split]
      by_cases backslash : character = '\\'
      · simp [backslash, dropEscapeBefore, ih]
      · rw [if_neg backslash, List.singleton_append,
          dropEscapeBefore_cons (.inl backslash), ih]

/-- Taking the backslashes away in two passes undoes the escaping. -/
theorem valueOf_quote (value : List Char) : valueOf (quote value) = value := by
  have inside : unquoted? (quote value) = some (escape value) := by
    simp [quote, unquoted?]
  rw [valueOf, inside]
  simp only [dropEscapeBefore_quote, dropEscapeBefore_backslash]

theorem pairsFrom_of_not_start {first : Char} (other : isKeyStart first = false)
    (rest : List Char) : pairsFrom (first :: rest) = pairsFrom rest := by
  rw [pairsFrom, if_neg (by simp [other])]

theorem pairsFrom_writePair {pair : String × String}
    (keyed : isKey pair.1 = true) (after : List Char) :
    pairsFrom (writePair pair ++ after) =
      (pair.1.toList, quote pair.2.toList) :: pairsFrom after := by
  unfold isKey at keyed
  unfold writePair
  cases key : pair.1.toList with
  | nil => simp [key] at keyed
  | cons first rest =>
      simp only [key, Bool.and_eq_true, List.all_eq_true] at keyed
      obtain ⟨starts, goesOn⟩ := keyed
      have apart : isKeyPart '=' = false := by decide
      generalize value : quote pair.2.toList ++ after = remaining
      have whole : (first :: rest) ++ '=' :: quote pair.2.toList ++ after =
          first :: (rest ++ '=' :: remaining) := by
        simp [← value]
      have taken : (rest ++ '=' :: remaining).takeWhile isKeyPart = rest := by
        rw [List.takeWhile_append_of_pos goesOn,
          List.takeWhile_cons_of_neg (by simp [apart]), List.append_nil]
      have left : (rest ++ '=' :: remaining).dropWhile isKeyPart =
          '=' :: remaining := by
        rw [List.dropWhile_append_of_pos goesOn,
          List.dropWhile_cons_of_neg (by simp [apart])]
      rw [whole, pairsFrom, if_pos starts]
      simp only [taken]
      split
      · rename_i found
        rw [left] at found
        cases found
        rw [← value, rawValue_quote]
      · rename_i other
        exact (other _ left).elim

theorem pairsFrom_writePairs {pairs : List (String × String)}
    (keyed : ∀ pair ∈ pairs, isKey pair.1 = true) :
    pairsFrom (writePairs pairs) =
      pairs.map fun pair => (pair.1.toList, quote pair.2.toList) := by
  induction pairs with
  | nil => simp [writePairs, pairsFrom]
  | cons pair rest ih =>
      have first := pairsFrom_writePair (keyed pair List.mem_cons_self)
      have later := ih fun other member =>
        keyed other (List.mem_cons_of_mem _ member)
      cases rest with
      | nil =>
          have last := first []
          rw [List.append_nil] at last
          rw [writePairs, last]
          simp [pairsFrom]
      | cons next rest =>
          rw [writePairs, first, pairsFrom_of_not_start (by decide), later]
          · rfl
          · exact List.cons_ne_nil _ _

/-- The pairs of a line are those that it was written from. -/
theorem pairs_line {written : List (String × String)}
    (keyed : ∀ pair ∈ written, isKey pair.1 = true) :
    pairs (line written).toList = written := by
  rw [pairs, line, String.toList_ofList, pairsFrom_writePairs keyed,
    List.map_map]
  apply List.map_id''
  intro pair
  simp [valueOf_quote]

theorem isBlank_of_isKeyStart {character : Char}
    (starts : isKeyStart character = true) :
    Text.isBlank character = false := by
  have code : (0x41 ≤ character.toNat ∧ character.toNat ≤ 0x5A) ∨
      (0x61 ≤ character.toNat ∧ character.toNat ≤ 0x7A) ∨
      character.toNat = 0x5F := by
    rcases Bool.or_eq_true_iff.mp starts with letter | underscore
    · rcases Bool.or_eq_true_iff.mp letter with upper | lower
      · exact .inl (of_decide_eq_true upper)
      · obtain ⟨least, greatest⟩ := Bool.and_eq_true_iff.mp lower
        exact .inr (.inl
          ⟨of_decide_eq_true least, of_decide_eq_true greatest⟩)
    · exact .inr (.inr (congrArg Char.toNat (eq_of_beq underscore)))
  simp only [Text.isBlank, Text.blankRanges, List.any_cons, List.any_nil,
    Bool.or_false, Bool.or_eq_false_iff, Bool.and_eq_false_iff,
    decide_eq_false_iff_not]
  omega

theorem exists_head?_writePairs {pairs : List (String × String)}
    (keyed : ∀ pair ∈ pairs, isKey pair.1 = true) (several : pairs ≠ []) :
    ∃ first, (writePairs pairs).head? = some first ∧
      isKeyStart first = true := by
  obtain ⟨pair, rest, rfl⟩ := List.exists_cons_of_ne_nil several
  have first := keyed pair List.mem_cons_self
  unfold isKey at first
  cases key : pair.1.toList with
  | nil => simp [key] at first
  | cons start more =>
      simp only [key, Bool.and_eq_true] at first
      refine ⟨start, ?_, first.1⟩
      cases rest <;> simp [writePairs, writePair, key]

theorem getLast?_writePairs {pairs : List (String × String)}
    (several : pairs ≠ []) : (writePairs pairs).getLast? = some '"' := by
  induction pairs with
  | nil => exact (several rfl).elim
  | cons pair rest ih =>
      cases rest with
      | nil => simp [writePairs, writePair, quote, List.getLast?_cons]
      | cons next rest => simp [writePairs, ih, List.getLast?_cons]

theorem trim_writePairs {pairs : List (String × String)}
    (keyed : ∀ pair ∈ pairs, isKey pair.1 = true) (several : pairs ≠ []) :
    Text.trim (writePairs pairs) = writePairs pairs := by
  obtain ⟨first, begins, starts⟩ := exists_head?_writePairs keyed several
  exact Text.trim_eq_self begins (getLast?_writePairs several)
    (isBlank_of_isKeyStart starts) (by decide)

theorem record?_writePairs {pairs : List (String × String)}
    (keyed : ∀ pair ∈ pairs, isKey pair.1 = true)
    (structuring : ∃ pair ∈ pairs, isStructuring pair.1 = true)
    (position : Nat) :
    record? position (writePairs pairs) =
      some (fieldKeys.record position pairs) := by
  have found := pairs_line keyed
  rw [line, String.toList_ofList] at found
  have some : pairs.any (fun pair => isStructuring pair.1) = true :=
    List.any_eq_true.mpr structuring
  rw [record?_eq, found, if_pos some]

end Logfmt

namespace Record

theorem ofJson?_eq_none {text : List Char} {first : Char}
    (begins : text.head? = some first)
    (starts : Logfmt.isKeyStart first = true) (position : Nat) :
    ofJson? position text = none := by
  unfold ofJson?
  split
  · cases begins
    cases starts
  · rfl

theorem ofLine_writePairs {pairs : List (String × String)}
    (keyed : ∀ pair ∈ pairs, Logfmt.isKey pair.1 = true)
    (structuring : ∃ pair ∈ pairs, Logfmt.isStructuring pair.1 = true)
    (position : Nat) :
    ofLine position (Logfmt.writePairs pairs) =
      Logfmt.fieldKeys.record position pairs := by
  have several : pairs ≠ [] := by
    obtain ⟨pair, member, _⟩ := structuring
    exact List.ne_nil_of_mem member
  obtain ⟨first, begins, starts⟩ :=
    Logfmt.exists_head?_writePairs keyed several
  simp only [ofLine, Logfmt.trim_writePairs keyed several,
    ofJson?_eq_none begins starts, Logfmt.record?_writePairs keyed structuring]

/-- The record of a line of pairs, one of which gives the severity or the
message: its fields are the last values that the pairs give them, and the other
pairs are its context, whatever characters the values hold. -/
theorem parseLine_of_pairs {pairs : List (String × String)}
    (keyed : ∀ pair ∈ pairs, Logfmt.isKey pair.1 = true)
    (structuring : ∃ pair ∈ pairs, Logfmt.isStructuring pair.1 = true)
    (position : Nat) :
    parseLine position (Logfmt.line pairs) =
      Logfmt.fieldKeys.record position pairs := by
  rw [parseLine, Logfmt.line, String.toList_ofList]
  exact ofLine_writePairs keyed structuring position

/-- Two severities, and values with blanks, equals signs, quotes and
backslashes. -/
private def unusual : List (String × String) :=
  [("ts", "12:00"), ("lvl", "warn"), ("path", "C:\\"), ("msg", "a=\"b c\" \\"),
    ("x.y-z", ""), ("level", " Error ")]

theorem parseLine_of_unusual_pairs :
    parseLine 7 (Logfmt.line unusual) = {
      position := 7, timestamp := "12:00", severity := .error
      message := "a=\"b c\" \\", context := ["path", "C:\\", "x.y-z", ""] } :=
  (parseLine_of_pairs (by decide) (by decide) 7).trans (by decide)

end Record
end LogPager
