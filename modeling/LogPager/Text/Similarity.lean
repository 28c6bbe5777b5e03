/-!
# Similarity of two texts

Two texts are similar when many characters of one are found in the other not
far from where they stand, in the same order, and when both begin alike.  The
measure lies between zero and one and is one for equal texts.
-/

namespace LogPager.Text

/-- Characters of a text, each with whether it has already found its
partner. -/
abbrev Partners := List (Char × Bool)

/-- Give a character the first equal one without a partner whose index, counted
from `index` on, lies from `low` to below `high`. -/
def pairUp? (character : Char) (low high : Nat) :
    (index : Nat) → Partners → Option Partners
  | _, [] => none
  | index, (other, taken) :: rest =>
      if low ≤ index && index < high && !taken && other == character then
        some ((other, true) :: rest)
      else
        (pairUp? character low high (index + 1) rest).map ((other, taken) :: ·)

/-- Pair the characters from an index on with partners at most `reach` places
away: those that found one, and the other text afterwards. -/
def pairAll (reach : Nat) :
    (index : Nat) → List Char → Partners → List Char × Partners
  | _, [], partners => ([], partners)
  | index, character :: rest, partners =>
      match pairUp? character (index - reach) (index + reach + 1) 0 partners with
      | none => pairAll reach (index + 1) rest partners
      | some partners =>
          let (matched, partners) := pairAll reach (index + 1) rest partners
          (character :: matched, partners)

/-- How far from its place a character is searched for. -/
def matchingReach (left right : List Char) : Nat :=
  max left.length right.length / 2 - 1

/-- The share of matching characters in each text, and the share of those that
come in the same order in both, on average. -/
def agreement (left right : List Char) : Float :=
  if left.isEmpty && right.isEmpty then 1.0
  else
    let (matched, partners) :=
      pairAll (matchingReach left right) 0 left (right.map (·, false))
    let found := (partners.filter (·.2)).map (·.1)
    let displaced := ((matched.zip found).countP fun pair => pair.1 != pair.2) / 2
    let count := matched.length
    if count = 0 then 0.0
    else
      (count.toFloat / left.length.toFloat +
          count.toFloat / right.length.toFloat +
          (count - displaced).toFloat / count.toFloat) / 3.0

/-- How many of the first four characters the texts have in common. -/
def commonStart (left right : List Char) : Nat :=
  (((left.zip right).take 4).takeWhile fun pair => pair.1 == pair.2).length

/-- The agreement of two texts, raised for texts that already agree well by a
tenth of what is missing for each character of their common start. -/
def similarity (left right : String) : Float :=
  let base := agreement left.toList right.toList
  if base > 0.7 then
    base + 0.1 * (commonStart left.toList right.toList).toFloat * (1.0 - base)
  else base

end LogPager.Text
