import LogPager.Settings.Basic
import LogPager.Settings.Error
import LogPager.Yaml.Document
import LogPager.Yaml.Word

/-!
# Reading settings

A settings file is a mapping whose keys are fields, each at most once.  Keys
and values are checked in the order of the file, and the first fault counts.
-/

namespace LogPager

open Yaml (Place)

/-- Why a document is no settings file. -/
inductive SettingsFault where
  | unknownField (name : String)
  | repeatedField (field : SettingsField) (place : Place)
  | wrongValue (field : SettingsField) (place : Place)
  | noMapping (place : Place)
  | malformed (place : Place)
deriving DecidableEq, Repr

namespace SettingsFault

def quotedName (name : String) : String :=
  "`" ++ name ++ "`"

def atPlace (text : String) (place : Place) : String :=
  text ++ " at line " ++ toString place.line ++ ", column " ++
    toString place.column

def message : SettingsFault → String
  | unknownField name =>
      "unknown field " ++ quotedName name ++ ", expected one of " ++
        ", ".intercalate
          (SettingsField.all.map fun field => quotedName field.name)
  | repeatedField field place =>
      atPlace ("repeated field " ++ quotedName field.name) place
  | wrongValue field place =>
      atPlace ("wrong value for field " ++ quotedName field.name) place
  | noMapping place => atPlace "expected a mapping" place
  | malformed place => atPlace "malformed text" place

end SettingsFault

namespace Overrides

/-- Set a number field; a text is set for the folder. -/
def setScalar? (overrides : Overrides) (field : SettingsField)
    (text : String) : Option Overrides :=
  match field with
  | .dir => some { overrides with dir := some text }
  | .fetchLimit =>
      (Yaml.word? text).map ({ overrides with fetchLimit := some · })
  | .maxRecords =>
      (Yaml.word? text).map ({ overrides with maxRecords := some · })
  | .edgeBand =>
      (Yaml.word? text).map ({ overrides with edgeBand := some · })

/-- Set a field from its value.  A null leaves it as it was. -/
def setField (overrides : Overrides) (field : SettingsField) :
    Yaml.Node → Except SettingsFault Overrides
  | .collection place => .error (.wrongValue field place)
  | .fault place => .error (.malformed place)
  | .scalar scalar =>
      if scalar.isNull then .ok overrides
      else
        match overrides.setScalar? field scalar.text with
        | some overrides => .ok overrides
        | none => .error (.wrongValue field scalar.place)

/-- Take one entry after those whose fields are `seen`. -/
def addEntry (state : List SettingsField × Overrides) (entry : Yaml.Entry) :
    Except SettingsFault (List SettingsField × Overrides) := do
  let (seen, overrides) := state
  match SettingsField.ofName? entry.key.text with
  | none => .error (.unknownField entry.key.text)
  | some field =>
      if field ∈ seen then .error (.repeatedField field entry.key.place)
      else return (field :: seen, ← overrides.setField field entry.value)

def ofMapping (mapping : Yaml.Mapping) : Except SettingsFault Overrides := do
  let (_, overrides) ← mapping.entries.foldlM addEntry ([], {})
  match mapping.fault with
  | some place => .error (.malformed place)
  | none => return overrides

/-- The values of a document.  A document without content has none. -/
def ofDocument : Yaml.Document → Except SettingsFault Overrides
  | .mapping mapping => ofMapping mapping
  | .scalar scalar =>
      if scalar.isNull then .ok {} else .error (.noMapping scalar.place)
  | .collection place => .error (.noMapping place)
  | .fault place => .error (.malformed place)

/-- The values of the text of a settings file; a blank text has none. -/
def ofText (text : String) : Except SettingsFault Overrides :=
  if (Text.trim text.toList).isEmpty then .ok {}
  else ofDocument (.read text)

end Overrides
end LogPager
