import LogPager.Text.Similarity

/-!
# Fields of a settings file

The names a settings file may use, and the name that was probably meant by a
text that is none of them.
-/

namespace LogPager

/-- A field of a settings file. -/
inductive SettingsField where
  | dir | fetchLimit | maxRecords | edgeBand
deriving DecidableEq, Repr

namespace SettingsField

def all : List SettingsField :=
  [dir, fetchLimit, maxRecords, edgeBand]

def name : SettingsField → String
  | dir => "dir"
  | fetchLimit => "fetch_limit"
  | maxRecords => "max_records"
  | edgeBand => "edge_band"

def ofName? (text : String) : Option SettingsField :=
  all.find? (·.name == text)

theorem ofName?_name (field : SettingsField) :
    ofName? field.name = some field := by
  cases field <;> rfl

/-- How similar a text has to be to a name that is suggested for it. -/
def suggestionThreshold : Float := 0.8

/-- The better of two candidates, the later one if both are as similar. -/
def better (best : Option (SettingsField × Float))
    (candidate : SettingsField × Float) : Option (SettingsField × Float) :=
  match best with
  | none => some candidate
  | some held => if candidate.2 < held.2 then some held else some candidate

/-- The field whose name is most similar to a text, if it is similar enough. -/
def suggestion? (text : String) : Option SettingsField :=
  let candidates := all.map fun field => (field, Text.similarity text field.name)
  let close := candidates.filter fun candidate =>
    candidate.2 ≥ suggestionThreshold
  (close.foldl better none).map (·.1)

end SettingsField
end LogPager
