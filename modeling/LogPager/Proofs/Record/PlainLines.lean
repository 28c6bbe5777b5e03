import LogPager.Proofs.Text.EscapeSequences
import LogPager.Record.Display
import LogPager.Record.Line

/-!
# Messages of plain lines

A line that is neither an object nor a line of pairs is its own message, less
the escape sequences that one pass removes, and the terminal shows this message
as it is.  Whether another pass would find anything is a matter of the line
alone: it would find what a removed sequence had interrupted.
-/

namespace LogPager.Record

open Text.AnsiEscape

theorem parseLine_of_plain {position : Nat} {line : String}
    (noObject : ofJson? position (Text.trim line.toList) = none)
    (noPairs : Logfmt.record? position (Text.trim line.toList) = none) :
    parseLine position line = ofPlain position line.toList := by
  rw [parseLine, ofLine]
  simp only [noObject, noPairs]

/-- A plain line is shown as its message, and another pass would leave the
message exactly if there is no escape sequence in it.  A sequence is in it exactly
if the pass over the line came to the beginning of a control sequence with a
sequence right behind it, and what is left behind that one completes it. -/
theorem sequences_of_plain_message {position : Nat} {line : String}
    (noObject : ofJson? position (Text.trim line.toList) = none)
    (noPairs : Logfmt.record? position (Text.trim line.toList) = none) :
    let record := parseLine position line
    let message := record.message.toList
    (∀ styling, record.display styling = record.message) ∧
      (strip message = message ↔
        ∀ sequence, Sequence sequence → ¬sequence <:+: message) ∧
      ∀ sequence, Sequence sequence →
        (sequence <:+: message ↔ Joins line.toList sequence) := by
  intro record message
  have plain : record = ofPlain position line.toList :=
    parseLine_of_plain noObject noPairs
  have stripped : message = strip line.toList := by
    simp only [message, plain, ofPlain, String.toList_ofList]
  refine ⟨?_, strip_eq_self_iff, ?_⟩
  · intro styling
    rw [plain]
    rfl
  · intro sequence whole
    rw [stripped]
    exact infix_strip_iff whole line.toList

/-- The beginning and the end of a sequence with another one between them. -/
theorem sequences_of_interrupted_message :
    let line := "\x1b[3\x1b[0m1mred"
    (parseLine 0 line).message = "\x1b[31mred" ∧
      Sequence "\x1b[31m".toList ∧ Joins line.toList "\x1b[31m".toList := by
  intro line
  have left : (parseLine 0 line).message = "\x1b[31mred" := by decide +kernel
  have opens : Opening "\x1b[31".toList :=
    @Opening.mk ['3', '1'] [] (List.all_eq_true.mp rfl) nofun
  have sequence : Sequence "\x1b[31m".toList :=
    @Sequence.control _ 'm' opens (by decide)
  obtain ⟨_, _, joins⟩ := @sequences_of_plain_message 0 line
    (by decide +kernel) (by decide +kernel)
  refine ⟨left, sequence, (joins _ sequence).mp ?_⟩
  rw [left]
  exact ⟨[], "red".toList, by decide⟩

/-- The sequence that is removed here stood where another one, which is left,
had begun. -/
theorem sequence_left_in_message :
    let line := "\x1b[\x1b[mm"
    let message := (parseLine 0 line).message.toList
    ofJson? 0 (Text.trim line.toList) = none ∧
      Logfmt.record? 0 (Text.trim line.toList) = none ∧
      Sequence "\x1b[m".toList ∧ "\x1b[m".toList <:+: message ∧
      strip message ≠ message := by
  intro line message
  have left : message = "\x1b[m".toList := by decide +kernel
  have opens : Opening "\x1b[".toList :=
    @Opening.mk [] [] nofun nofun
  have sequence : Sequence "\x1b[m".toList :=
    @Sequence.control _ 'm' opens (by decide)
  refine ⟨by decide +kernel, by decide +kernel, sequence, ?_, ?_⟩
  · exact left ▸ List.infix_rfl
  · rw [left]
    decide +kernel

end LogPager.Record
