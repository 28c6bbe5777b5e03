import LogPager.Settings.Field
import LogPager.Text.Digits
import LogPager.Text.Search

/-!
# Errors of settings files

An error names its file and, where the message of the reader tells it, the
place in the file.  For an unknown field it suggests the one that was probably
meant.
-/

namespace LogPager

/-- Why the text of a settings file was refused. -/
structure ParseFault where
  message : String
  line : Option Nat := none
  column : Option Nat := none
  suggestion : Option String := none
deriving DecidableEq, Repr

/-- Why a settings file cannot be used. -/
inductive SettingsError where
  | io (path text : String)
  | parse (path : String) (fault : ParseFault)
  | validation (path message : String)
deriving DecidableEq, Repr

namespace ParseFault

/-- The line and the column that stand at the start of a text.  A number that
is too large, or not in ASCII digits, is none. -/
def location? (text : List Char) : Option (Option Nat × Option Nat) := do
  let text ← Text.dropWord? "line ".toList text
  let line := text.takeWhile Text.isDecimalDigit
  let text := text.dropWhile Text.isDecimalDigit
  let text := if text.head? = some ',' then text.drop 1 else text
  let text ← Text.dropWord? " column ".toList text
  let column := text.takeWhile Text.isDecimalDigit
  if line.isEmpty || column.isEmpty then none
  return (Text.readWord? line, Text.readWord? column)

def unknownField? (text : List Char) : Option String := do
  let text ← Text.dropWord? "unknown field `".toList text
  let name := text.takeWhile (· ≠ '`')
  if name.isEmpty || (text.dropWhile (· ≠ '`')).isEmpty then none
  return String.ofList name

def ofMessage (message : String) : ParseFault :=
  let text := message.toList
  let location := (Text.firstMatch? location? text).getD (none, none)
  { message
    line := location.1
    column := location.2
    suggestion :=
      (Text.firstMatch? unknownField? text).bind fun name =>
        (SettingsField.suggestion? name).map (·.name) }

end ParseFault

namespace SettingsError

def path : SettingsError → String
  | io path _ | parse path _ | validation path _ => path

/-- The path with line and column as far as they are known. -/
def location : SettingsError → String
  | parse path fault =>
      match fault.line, fault.column with
      | some line, some column =>
          path ++ ":" ++ toString line ++ ":" ++ toString column
      | some line, none => path ++ ":" ++ toString line
      | none, _ => path
  | other => other.path

def headline : SettingsError → String
  | io .. => "cannot read config file"
  | parse _ fault => fault.message
  | validation _ message => message

/-- What is said below the location. -/
def note? : SettingsError → Option String
  | io _ text => some text
  | parse _ fault =>
      fault.suggestion.map fun field => "help: did you mean `" ++ field ++ "`?"
  | validation .. => none

/-- The error in several lines: the headline, the location and the note. -/
def report (error : SettingsError) : String :=
  "error: " ++ error.headline ++ "\n  --> " ++ error.location ++ "\n  |\n" ++
    error.note?.elim "" fun note => "  = " ++ note ++ "\n"

end SettingsError
end LogPager
