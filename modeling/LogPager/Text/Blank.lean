/-!
# Blank characters

The characters with the Unicode property White_Space, and text without the
blanks at its ends.
-/

namespace LogPager.Text

/-- The code points with the property White_Space, as inclusive ranges. -/
def blankRanges : List (Nat × Nat) :=
  [(0x0009, 0x000D), (0x0020, 0x0020), (0x0085, 0x0085), (0x00A0, 0x00A0),
    (0x1680, 0x1680), (0x2000, 0x200A), (0x2028, 0x2029), (0x202F, 0x202F),
    (0x205F, 0x205F), (0x3000, 0x3000)]

/-- A character is blank when it has the property White_Space. -/
def isBlank (character : Char) : Bool :=
  blankRanges.any fun range =>
    range.1 ≤ character.toNat && character.toNat ≤ range.2

/-- The text without the characters at its end that satisfy `drop`. -/
def trimEndWhere (drop : Char → Bool) (text : List Char) : List Char :=
  (text.reverse.dropWhile drop).reverse

/-- The text without the blanks at both ends. -/
def trim (text : List Char) : List Char :=
  trimEndWhere isBlank (text.dropWhile isBlank)

theorem length_dropWhile_le (keep : Char → Bool) (text : List Char) :
    (text.dropWhile keep).length ≤ text.length :=
  (List.dropWhile_sublist keep).length_le

theorem isBlank_of_isWhitespace {character : Char}
    (whitespace : character.isWhitespace = true) :
    isBlank character = true := by
  simp only [Char.isWhitespace, Bool.or_eq_true, decide_eq_true_eq] at whitespace
  rcases whitespace with ((rfl | rfl) | rfl) | rfl <;> decide

end LogPager.Text
