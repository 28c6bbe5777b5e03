import LogPager.Text.Blank

/-!
# Terminal escape sequences

Two kinds of sequence are recognised after the escape character: a control
sequence, which is an opening bracket, parameters, intermediates and a final
character; and a pair, which is any one character that opens no longer
sequence.
-/

namespace LogPager.Text.AnsiEscape

/-- The character that opens every sequence. -/
def escape : Char := '\x1b'

/-- Parameters of a control sequence. -/
def isParameter (character : Char) : Bool :=
  character.isDigit || character == ';' || character == '?'

/-- Intermediate characters of a control sequence. -/
def isIntermediate (character : Char) : Bool :=
  ' ' ≤ character && character ≤ '/'

/-- The character that ends a control sequence. -/
def isFinal (character : Char) : Bool :=
  '@' ≤ character && character ≤ '~'

/-- Characters that make a whole sequence with the escape before them. -/
def isSingle (character : Char) : Bool :=
  !(character == '[' || character == ']' || character == '(' ||
    character == ')' || character.isDigit)

/-- What follows the sequence at the start of the text, none if no sequence
stands there. -/
def after? : List Char → Option (List Char)
  | opening :: kind :: rest =>
      if opening ≠ escape then none
      else if kind = '[' then
        match (rest.dropWhile isParameter).dropWhile isIntermediate with
        | final :: rest => if isFinal final then some rest else none
        | [] => none
      else if isSingle kind then some rest
      else none
  | _ => none

theorem after?_shorter {text rest : List Char} (found : after? text = some rest) :
    rest.length < text.length := by
  match text, found with
  | opening :: kind :: tail, found =>
      simp only [after?] at found
      split at found
      · cases found
      · split at found
        · split at found
          case h_1 final afterFinal equality =>
            split at found
            · cases found
              have inner := length_dropWhile_le isIntermediate
                (tail.dropWhile isParameter)
              have outer := length_dropWhile_le isParameter tail
              rw [equality] at inner
              simp only [List.length_cons] at inner ⊢
              omega
            · cases found
          case h_2 => cases found
        · split at found
          · cases found
            simp only [List.length_cons]
            omega
          · cases found

/-- Remove the sequences in one pass from the start; `kept` is what remains
of the text before, newest first. -/
def stripFrom (kept : List Char) (text : List Char) : List Char :=
  match found : after? text with
  | some rest =>
      have := after?_shorter found
      stripFrom kept rest
  | none =>
      match text with
      | [] => kept.reverse
      | character :: rest => stripFrom (character :: kept) rest
termination_by text.length

/-- The text without the sequences found in one pass from its start. -/
def strip (text : List Char) : List Char :=
  stripFrom [] text

end LogPager.Text.AnsiEscape
