import LogPager.Record.Line

/-!
# Positions of parsed records

Whatever a line holds, its record has the position it was parsed for.
-/

namespace LogPager
namespace Record

private theorem position_foldl {α : Type} {add : Record → α → Record}
    (kept : ∀ record value, (add record value).position = record.position)
    (values : List α) (start : Record) :
    (values.foldl add start).position = start.position := by
  induction values generalizing start with
  | nil => rfl
  | cons value values ih => rw [List.foldl_cons, ih, kept]

theorem position_ofMembers (position : Nat)
    (members : List (List Char × Json.Value)) :
    (ofMembers position members).position = position := by
  have member : ∀ (record : Record) (key text : String),
      (record.applyMember key text).position = record.position := by
    intro record key text
    unfold applyMember
    split <;> rfl
  rw [ofMembers]
  exact position_foldl (fun record _ => member record _ _) members { position }

theorem position_of_ofJson? {position : Nat} {text : List Char}
    {record : Record} (made : ofJson? position text = some record) :
    record.position = position := by
  unfold ofJson? at made
  split at made
  · split at made
    · cases made
      exact position_ofMembers _ _
    · cases made
  · cases made

theorem position_of_logfmt {position : Nat} {text : List Char}
    {record : Record} (made : Logfmt.record? position text = some record) :
    record.position = position := by
  have pair : ∀ (record : Record) (key value : String),
      (Logfmt.applyPair record key value).position = record.position := by
    intro record key value
    unfold Logfmt.applyPair
    split <;> rfl
  unfold Logfmt.record? at made
  simp only at made
  split at made
  · cases made
    exact position_foldl (fun record _ => pair record _ _) _ { position }
  · cases made

theorem position_ofLine (position : Nat) (line : List Char) :
    (ofLine position line).position = position := by
  unfold ofLine
  simp only
  split
  · rename_i record made
    exact position_of_ofJson? made
  · split
    · rename_i record made
      exact position_of_logfmt made
    · rfl

theorem position_parseLine (position : Nat) (line : String) :
    (parseLine position line).position = position :=
  position_ofLine position line.toList

end Record

end LogPager
