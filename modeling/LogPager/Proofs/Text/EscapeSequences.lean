import LogPager.Text.AnsiEscape
import Mathlib.Data.List.TakeWhile

/-!
# What stripping leaves of escape sequences

The sequences of the terminal form a grammar, and the matcher finds exactly
those at the start of a text.  A pass over a text removes what it finds and does
not look back, so a control sequence that another sequence interrupts may be
whole again once that one is removed.  These are the only sequences that a pass
leaves.
-/

namespace LogPager.Text.AnsiEscape

/-- A control sequence as far as its final character. -/
inductive Opening : List Char → Prop
  | mk {parameters intermediates : List Char}
      (numbers : ∀ character ∈ parameters, isParameter character = true)
      (others : ∀ character ∈ intermediates, isIntermediate character = true) :
      Opening (escape :: '[' :: (parameters ++ intermediates))

/-- A whole escape sequence. -/
inductive Sequence : List Char → Prop
  | control {opening : List Char} {final : Char} (opens : Opening opening)
      (ends : isFinal final = true) : Sequence (opening ++ [final])
  | pair {single : Char} (alone : isSingle single = true) :
      Sequence [escape, single]

private theorem isParameter_bounds {character : Char}
    (parameter : isParameter character = true) :
    0x30 ≤ character.toNat ∧ character.toNat < 0x40 := by
  simp only [isParameter, Bool.or_eq_true, beq_iff_eq] at parameter
  rcases parameter with (digit | rfl) | rfl
  · obtain ⟨low, high⟩ := Char.isDigit_iff_toNat.mp digit
    have first : '0'.toNat = 0x30 := rfl
    have last : '9'.toNat = 0x39 := rfl
    omega
  · decide
  · decide

private theorem isIntermediate_bounds {character : Char}
    (intermediate : isIntermediate character = true) :
    0x20 ≤ character.toNat ∧ character.toNat < 0x30 := by
  simp only [isIntermediate, Bool.and_eq_true, decide_eq_true_eq,
    Char.le_def, UInt32.le_iff_toNat_le] at intermediate
  have first : (' ' : Char).val.toNat = 0x20 := rfl
  have last : ('/' : Char).val.toNat = 0x2F := rfl
  have same : character.val.toNat = character.toNat := rfl
  omega

/-- The classes of characters of a control sequence are apart, so that every
character tells its own place. -/
private theorem apart_of_isFinal {character : Char}
    (final : isFinal character = true) :
    isIntermediate character = false ∧ isParameter character = false := by
  simp only [isFinal, Bool.and_eq_true, decide_eq_true_eq, Char.le_def,
    UInt32.le_iff_toNat_le] at final
  have bound : 0x40 ≤ character.toNat := final.1
  refine ⟨Bool.eq_false_iff.mpr ?_, Bool.eq_false_iff.mpr ?_⟩
  · intro intermediate
    have bounds := isIntermediate_bounds intermediate
    omega
  · intro parameter
    have bounds := isParameter_bounds parameter
    omega

private theorem not_isParameter_of_isIntermediate {character : Char}
    (intermediate : isIntermediate character = true) :
    isParameter character = false := by
  rw [Bool.eq_false_iff]
  intro parameter
  have low := isParameter_bounds parameter
  have high := isIntermediate_bounds intermediate
  omega

/-- A text behind an opening bracket, divided as the matcher divides it. -/
structure Divides (parameters intermediates rest : List Char) : Prop where
  numbers : ∀ character ∈ parameters, isParameter character = true
  others : ∀ character ∈ intermediates, isIntermediate character = true
  /-- What follows goes on neither with the intermediates nor, where there are
  none, with the parameters. -/
  stops : ∀ next, rest.head? = some next → isIntermediate next = false ∧
    (intermediates = [] → isParameter next = false)

namespace Divides

variable {parameters intermediates rest : List Char}

theorem opening (divides : Divides parameters intermediates rest) :
    Opening (escape :: '[' :: (parameters ++ intermediates)) :=
  .mk divides.numbers divides.others

theorem congr (divides : Divides parameters intermediates rest)
    {other : List Char} (same : other.head? = rest.head?) :
    Divides parameters intermediates other :=
  ⟨divides.numbers, divides.others, same ▸ divides.stops⟩

theorem dropWhile_eq (divides : Divides parameters intermediates rest) :
    ((parameters ++ intermediates ++ rest).dropWhile isParameter).dropWhile
      isIntermediate = rest := by
  have numbers : (parameters ++ intermediates ++ rest).dropWhile isParameter =
      intermediates ++ rest := by
    rw [List.append_assoc, List.dropWhile_append_of_pos divides.numbers]
    apply List.dropWhile_eq_self_iff.mpr
    intro positive
    rw [Bool.not_eq_true]
    cases intermediates with
    | nil =>
        cases rest with
        | nil => simp at positive
        | cons next more => exact (divides.stops next rfl).2 rfl
    | cons next more =>
        exact not_isParameter_of_isIntermediate
          (divides.others next List.mem_cons_self)
  rw [numbers, List.dropWhile_append_of_pos divides.others]
  apply List.dropWhile_eq_self_iff.mpr
  intro positive
  rw [Bool.not_eq_true]
  cases rest with
  | nil => simp at positive
  | cons next more => exact (divides.stops next rfl).1

theorem after?_cons {next : Char} {more : List Char}
    (divides : Divides parameters intermediates (next :: more)) :
    after? (escape :: '[' :: (parameters ++ intermediates ++ next :: more)) =
      if isFinal next then some more else none := by
  simp only [after?, ne_eq, not_true_eq_false, if_false, if_true,
    divides.dropWhile_eq]

theorem after?_nil (divides : Divides parameters intermediates []) :
    after? (escape :: '[' :: (parameters ++ intermediates)) = none := by
  have none := divides.dropWhile_eq
  rw [List.append_nil] at none
  simp only [after?, ne_eq, not_true_eq_false, if_false, if_true, none]

end Divides

theorem exists_divides (text : List Char) :
    ∃ parameters intermediates rest,
      text = parameters ++ intermediates ++ rest ∧
        Divides parameters intermediates rest := by
  refine ⟨text.takeWhile isParameter,
    (text.dropWhile isParameter).takeWhile isIntermediate,
    (text.dropWhile isParameter).dropWhile isIntermediate, ?_, ?_, ?_, ?_⟩
  · rw [List.append_assoc, List.takeWhile_append_dropWhile,
      List.takeWhile_append_dropWhile]
  · exact fun _ member => List.mem_takeWhile_imp member
  · exact fun _ member => List.mem_takeWhile_imp member
  · intro next begins
    refine ⟨?_, fun none => ?_⟩
    · have stopped := List.head?_dropWhile_not isIntermediate
        (text.dropWhile isParameter)
      rw [begins] at stopped
      exact stopped
    · have whole := List.takeWhile_append_dropWhile
        (p := isIntermediate) (l := text.dropWhile isParameter)
      rw [none, List.nil_append] at whole
      have stopped := List.head?_dropWhile_not isParameter text
      rw [whole] at begins
      rw [begins] at stopped
      exact stopped

/-- The matcher finds the sequences of the grammar. -/
theorem after?_eq_some_iff {text rest : List Char} :
    after? text = some rest ↔
      ∃ sequence, Sequence sequence ∧ text = sequence ++ rest := by
  constructor
  · intro found
    match text, found with
    | [], found => cases found
    | [_], found => cases found
    | first :: kind :: tail, found =>
        by_cases escaped : first = escape
        · subst escaped
          by_cases control : kind = '['
          · subst control
            obtain ⟨parameters, intermediates, after, rfl, divides⟩ :=
              exists_divides tail
            cases after with
            | nil =>
                rw [List.append_nil, divides.after?_nil] at found
                cases found
            | cons next more =>
                rw [divides.after?_cons] at found
                split at found
                · rename_i ends
                  cases found
                  exact ⟨_, .control divides.opening ends, by simp⟩
                · cases found
          · simp only [after?, ne_eq, not_true_eq_false, if_false, control]
              at found
            split at found
            · rename_i alone
              cases found
              exact ⟨_, .pair alone, rfl⟩
            · cases found
        · simp [after?, escaped] at found
  · rintro ⟨sequence, whole, rfl⟩
    cases whole with
    | @control _ final opens ends =>
        cases opens with
        | @mk parameters intermediates numbers others =>
            have divides : Divides parameters intermediates (final :: rest) := by
              refine ⟨numbers, others, ?_⟩
              rintro next ⟨rfl⟩
              exact (apart_of_isFinal ends).imp_right fun apart _ => apart
            have found := divides.after?_cons
            rw [if_pos ends] at found
            simpa using found
    | @pair single alone =>
        have plain : single ≠ '[' := by
          rintro rfl
          cases alone
        simp [after?, plain, alone]

theorem after?_eq_none_iff {text : List Char} :
    after? text = none ↔
      ∀ sequence, Sequence sequence → ¬sequence <+: text := by
  constructor
  · rintro none sequence whole ⟨rest, rfl⟩
    have found : after? (sequence ++ rest) = some rest :=
      after?_eq_some_iff.mpr ⟨sequence, whole, rfl⟩
    rw [none] at found
    cases found
  · intro absent
    cases found : after? text with
    | none => rfl
    | some rest =>
        obtain ⟨sequence, whole, rfl⟩ := after?_eq_some_iff.mp found
        exact (absent sequence whole (List.prefix_append _ _)).elim

theorem Sequence.begins {sequence : List Char} (whole : Sequence sequence) :
    sequence.head? = some escape := by
  cases whole with
  | control opens ends =>
      cases opens
      rfl
  | pair alone => rfl

theorem Opening.not_prefix {opening : List Char} (opens : Opening opening)
    {sequence : List Char} (whole : Sequence sequence) :
    ¬sequence <+: opening := by
  cases opens with
  | mk numbers others =>
      have divides : Divides _ _ [] := ⟨numbers, others, nofun⟩
      exact after?_eq_none_iff.mp divides.after?_nil sequence whole

/-- A pass removes a sequence, or else keeps a character, until the text ends. -/
theorem pass_induction {motive : List Char → Prop} (ended : motive [])
    (removed : ∀ text rest, after? text = some rest → motive rest → motive text)
    (kept : ∀ character rest, after? (character :: rest) = none →
      motive rest → motive (character :: rest))
    (text : List Char) : motive text := by
  cases found : after? text with
  | some rest =>
      have := after?_shorter found
      exact removed text rest found (pass_induction ended removed kept rest)
  | none =>
      cases text with
      | nil => exact ended
      | cons character rest =>
          exact kept character rest found
            (pass_induction ended removed kept rest)
termination_by text.length

private theorem stripFrom_of_found {text rest : List Char}
    (found : after? text = some rest) (kept : List Char) :
    stripFrom kept text = stripFrom kept rest := by
  rw [stripFrom]
  split
  · rename_i other same
    rw [found] at same
    cases same
    rfl
  · rename_i none
    rw [found] at none
    cases none

private theorem stripFrom_of_none {character : Char} {rest : List Char}
    (none : after? (character :: rest) = none) (kept : List Char) :
    stripFrom kept (character :: rest) = stripFrom (character :: kept) rest := by
  rw [stripFrom]
  split
  · rename_i other found
    rw [none] at found
    cases found
  · rfl

private theorem stripFrom_nil (kept : List Char) :
    stripFrom kept [] = kept.reverse := by
  rw [stripFrom]
  split
  · rename_i other found
    cases found
  · rfl

private theorem stripFrom_eq (kept text : List Char) :
    stripFrom kept text = kept.reverse ++ strip text := by
  induction text using pass_induction generalizing kept with
  | ended => rw [strip, stripFrom_nil, stripFrom_nil]; simp
  | removed text rest found ih =>
      rw [strip, stripFrom_of_found found, stripFrom_of_found found, ih, ih]
      rfl
  | kept character rest none ih =>
      rw [strip, stripFrom_of_none none, stripFrom_of_none none, ih, ih]
      simp

@[simp] theorem strip_nil : strip [] = [] :=
  stripFrom_nil []

theorem strip_of_found {text rest : List Char}
    (found : after? text = some rest) : strip text = strip rest :=
  stripFrom_of_found found []

theorem strip_of_none {character : Char} {rest : List Char}
    (none : after? (character :: rest) = none) :
    strip (character :: rest) = character :: strip rest := by
  rw [strip, stripFrom_of_none none, stripFrom_eq]
  rfl

theorem strip_sublist (text : List Char) : (strip text).Sublist text := by
  induction text using pass_induction with
  | ended => simp
  | removed text rest found ih =>
      obtain ⟨sequence, _, rfl⟩ := after?_eq_some_iff.mp found
      rw [strip_of_found found]
      exact ih.trans (List.sublist_append_right _ _)
  | kept character rest none ih =>
      rw [strip_of_none none]
      exact ih.cons_cons character

/-- A text stays as it is exactly if there is no sequence in it. -/
theorem strip_eq_self_iff {text : List Char} :
    strip text = text ↔ ∀ sequence, Sequence sequence → ¬sequence <:+: text := by
  induction text with
  | nil =>
      refine ⟨fun _ sequence whole inside => ?_, fun _ => strip_nil⟩
      have begins := whole.begins
      rw [List.eq_nil_of_infix_nil inside] at begins
      cases begins
  | cons character rest ih =>
      have parts : ∀ sequence, sequence <:+: character :: rest ↔
          sequence <+: character :: rest ∨ sequence <:+: rest :=
        fun _ => List.infix_cons_iff
      cases found : after? (character :: rest) with
      | some after =>
          -- Something is removed, so the text gets shorter.
          obtain ⟨sequence, whole, begins⟩ := after?_eq_some_iff.mp found
          constructor
          · intro same
            have shorter := after?_shorter found
            have length := (strip_sublist after).length_le
            rw [← strip_of_found found, same] at length
            omega
          · intro absent
            refine (absent sequence whole ?_).elim
            rw [begins]
            exact (List.prefix_append _ _).isInfix
      | none =>
          have none := after?_eq_none_iff.mp found
          rw [strip_of_none found, List.cons.injEq, ih]
          simp only [true_and, parts, not_or]
          exact ⟨fun absent sequence whole =>
              ⟨none sequence whole, absent sequence whole⟩,
            fun absent sequence whole => (absent sequence whole).2⟩

/-- The pass over a text comes to the rest of it, with everything before either
removed or kept. -/
inductive Arrives : List Char → List Char → Prop
  | start (text : List Char) : Arrives text text
  | removed {text next rest : List Char} (found : after? text = some next)
      (onward : Arrives next rest) : Arrives text rest
  | kept {character : Char} {next rest : List Char}
      (none : after? (character :: next) = none)
      (onward : Arrives next rest) : Arrives (character :: next) rest

theorem Arrives.strip_suffix {text rest : List Char}
    (arrives : Arrives text rest) : strip rest <:+ strip text := by
  induction arrives with
  | start text => exact List.suffix_rfl
  | removed found onward ih => exact strip_of_found found ▸ ih
  | kept none onward ih =>
      rw [strip_of_none none]
      exact ih.trans (List.suffix_cons _ _)

theorem after?_of_ne_escape {character : Char} (plain : character ≠ escape)
    (rest : List Char) : after? (character :: rest) = none := by
  rw [after?_eq_none_iff]
  intro sequence whole begins
  have escaped := whole.begins
  cases whole with
  | control opens ends =>
      cases opens
      exact plain (List.cons_prefix_cons.mp begins).1.symm
  | pair alone => exact plain (List.cons_prefix_cons.mp begins).1.symm

theorem strip_append_of_not_mem {left : List Char} (free : escape ∉ left)
    (right : List Char) : strip (left ++ right) = left ++ strip right := by
  induction left with
  | nil => rfl
  | cons character left ih =>
      obtain ⟨plain, freeRest⟩ := List.ne_and_not_mem_of_not_mem_cons free
      rw [List.cons_append, strip_of_none (after?_of_ne_escape plain.symm _),
        ih freeRest]
      rfl

namespace Divides

variable {parameters intermediates rest : List Char}

theorem escape_not_mem (divides : Divides parameters intermediates rest) :
    escape ∉ parameters ++ intermediates := by
  intro member
  rcases List.mem_append.mp member with number | other
  · exact absurd (divides.numbers _ number) (by decide)
  · exact absurd (divides.others _ other) (by decide)

/-- A control sequence that is not whole is kept as far as its final
character. -/
theorem strip_eq (divides : Divides parameters intermediates rest)
    (none : after? (escape :: '[' :: (parameters ++ intermediates ++ rest)) =
      none) :
    strip (escape :: '[' :: (parameters ++ intermediates ++ rest)) =
      escape :: '[' :: (parameters ++ intermediates ++ strip rest) := by
  rw [strip_of_none none,
    strip_of_none (after?_of_ne_escape (by decide) _),
    strip_append_of_not_mem divides.escape_not_mem]

end Divides

theorem Opening.strip_append {opening rest : List Char}
    (opens : Opening opening) (begins : rest.head? = some escape) :
    strip (opening ++ rest) = opening ++ strip rest := by
  cases opens with
  | @mk parameters intermediates numbers others =>
      obtain ⟨more, rfl⟩ := List.head?_eq_some_iff.mp begins
      have divides : Divides parameters intermediates (escape :: more) := by
        refine ⟨numbers, others, ?_⟩
        rintro next ⟨rfl⟩
        exact ⟨by decide, fun _ => by decide⟩
      exact divides.strip_eq (divides.after?_cons.trans (if_neg (by decide)))

/-- The pass comes to a control sequence that another sequence interrupts, and
what is left behind the other one completes the first. -/
def Joins (text sequence : List Char) : Prop :=
  ∃ opening removed rest ending,
    Arrives text (opening ++ (removed ++ rest)) ∧ Opening opening ∧
      Sequence removed ∧ sequence = opening ++ ending ∧ ending <+: strip rest

/-- What begins a sequence only once the pass is over began a control sequence
before. -/
theorem exists_opening {text : List Char} (none : after? text = none)
    (begins : (strip text).head? = some escape)
    (remains : after? (strip text) ≠ Option.none) :
    ∃ parameters intermediates rest,
      text = escape :: '[' :: (parameters ++ intermediates ++ rest) ∧
        Divides parameters intermediates rest := by
  match text with
  | [] =>
      rw [strip_nil] at begins
      cases begins
  | first :: tail =>
      rw [strip_of_none none] at begins remains
      cases begins
      match tail with
      | [] =>
          rw [strip_nil] at remains
          exact (remains rfl).elim
      | kind :: behind =>
          by_cases control : kind = '['
          · obtain ⟨parameters, intermediates, rest, rfl, divides⟩ :=
              exists_divides behind
            exact ⟨parameters, intermediates, rest, by rw [control], divides⟩
          · have notSingle : isSingle kind = false := by
              rw [Bool.eq_false_iff]
              intro alone
              simp [after?, control, alone] at none
            have plain : kind ≠ escape := by
              rintro rfl
              exact absurd notSingle (by decide)
            rw [strip_of_none (after?_of_ne_escape plain _)] at remains
            simp [after?, control, notSingle] at remains

/-- A control sequence that is whole only once the pass is over was interrupted
by another sequence. -/
theorem Divides.exists_removed {parameters intermediates rest : List Char}
    (divides : Divides parameters intermediates rest)
    (none : after? (escape :: '[' :: (parameters ++ intermediates ++ rest)) =
      none)
    (remains : after? (escape :: '[' ::
      (parameters ++ intermediates ++ strip rest)) ≠ Option.none) :
    ∃ removed after, Sequence removed ∧ rest = removed ++ after := by
  cases found : after? rest with
  | some after =>
      obtain ⟨removed, gone, same⟩ := after?_eq_some_iff.mp found
      exact ⟨removed, after, gone, same⟩
  | none =>
      -- What follows the opening is kept, so it still ends no sequence.
      refine (remains ?_).elim
      cases rest with
      | nil =>
          rw [strip_nil, List.append_nil]
          exact divides.after?_nil
      | cons next more =>
          have notFinal : ¬isFinal next = true := by
            intro ends
            rw [divides.after?_cons, if_pos ends] at none
            cases none
          rw [strip_of_none found, (divides.congr (by rfl)).after?_cons,
            if_neg notFinal]

theorem joins_of_prefix {text sequence : List Char}
    (none : after? text = none) (whole : Sequence sequence)
    (left : sequence <+: strip text) : Joins text sequence := by
  have remains : after? (strip text) ≠ Option.none := fun nothing =>
    after?_eq_none_iff.mp nothing sequence whole left
  have begins : (strip text).head? = some escape := by
    obtain ⟨after, same⟩ := left
    rw [← same, List.head?_append, whole.begins]
    rfl
  obtain ⟨parameters, intermediates, rest, rfl, divides⟩ :=
    exists_opening none begins remains
  rw [divides.strip_eq none] at remains left
  obtain ⟨removed, after, gone, rfl⟩ := divides.exists_removed none remains
  have opens := divides.opening
  rw [strip_of_found (after?_eq_some_iff.mpr ⟨removed, gone, rfl⟩)] at left
  change sequence <+:
    (escape :: '[' :: (parameters ++ intermediates)) ++ strip after at left
  rcases List.prefix_or_prefix_of_prefix left (List.prefix_append _ _) with
    early | ⟨ending, rfl⟩
  · exact (opens.not_prefix whole early).elim
  · exact ⟨_, removed, after, ending, .start _, opens, gone, rfl,
      (List.prefix_append_right_inj _).mp left⟩

/-- A sequence is left exactly where a removed one interrupted it. -/
theorem infix_strip_iff {sequence : List Char} (whole : Sequence sequence)
    (text : List Char) : sequence <:+: strip text ↔ Joins text sequence := by
  constructor
  · intro inside
    induction text using pass_induction with
    | ended =>
        have begins := whole.begins
        rw [strip_nil] at inside
        rw [List.eq_nil_of_infix_nil inside] at begins
        cases begins
    | removed text rest found ih =>
        rw [strip_of_found found] at inside
        obtain ⟨opening, removed, behind, ending, arrives, joined⟩ := ih inside
        exact ⟨opening, removed, behind, ending, .removed found arrives, joined⟩
    | kept character rest none ih =>
        rw [strip_of_none none] at inside
        rcases List.infix_cons_iff.mp inside with left | later
        · rw [← strip_of_none none] at left
          exact joins_of_prefix none whole left
        · obtain ⟨opening, removed, behind, ending, arrives, joined⟩ := ih later
          exact ⟨opening, removed, behind, ending, .kept none arrives, joined⟩
  · rintro ⟨opening, removed, rest, ending, arrives, opens, gone, rfl, ends⟩
    have found : after? (removed ++ rest) = some rest :=
      after?_eq_some_iff.mpr ⟨removed, gone, rfl⟩
    have begins : (removed ++ rest).head? = some escape := by
      rw [List.head?_append, gone.begins]
      rfl
    have kept : strip (opening ++ (removed ++ rest)) = opening ++ strip rest := by
      rw [opens.strip_append begins, strip_of_found found]
    have left : opening ++ ending <+: strip (opening ++ (removed ++ rest)) := by
      rw [kept]
      exact (List.prefix_append_right_inj _).mpr ends
    exact left.isInfix.trans arrives.strip_suffix.isInfix

end LogPager.Text.AnsiEscape
