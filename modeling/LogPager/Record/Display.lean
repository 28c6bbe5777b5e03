import LogPager.Record.Basic

/-!
# Records as terminal lines

A record is printed as its timestamp, a tag of its severity, its message and
its context.  A record that came from plain text is printed as it was.
-/

namespace LogPager

/-- Whether the terminal shows styles. -/
inductive Styling where
  | plain | styled
deriving DecidableEq, Repr

namespace Styling

/-- Write the opening of a style again after every sequence in a text that ends
all styles. -/
def reopen (opening : List Char) : List Char → List Char
  | '\x1b' :: '[' :: '0' :: 'm' :: rest =>
      '\x1b' :: '[' :: '0' :: 'm' :: (opening ++ reopen opening rest)
  | character :: rest => character :: reopen opening rest
  | [] => []

/-- A part of a line in a style of the terminal. -/
def wrap (styling : Styling) (style : String) (text : String) : String :=
  match styling with
  | .plain => text
  | .styled =>
      let opening := "\x1b[" ++ style ++ "m"
      opening ++ String.ofList (reopen opening.toList text.toList) ++ "\x1b[0m"

end Styling

namespace Severity

def style : Severity → String
  | crit => "1;31"
  | error => "31"
  | warn => "33"
  | info => "32"
  | debug => "34"
  | trace => "35"
  | unknown => "2"

/-- A name in the left of a column of the given width. -/
def column (width : Nat) (text : String) : String :=
  text ++ String.ofList (List.replicate (width - text.length) ' ')

/-- The uppercase name in a column of five. -/
def tag (severity : Severity) : String :=
  column 5 (String.ofList (severity.name.toList.map Char.toUpper))

/-- The name in a column of seven. -/
def padded (severity : Severity) : String :=
  column 7 severity.name

end Severity

namespace Record

/-- A record of unknown severity without timestamp and context is printed as
its message alone. -/
def isBare (record : Record) : Bool :=
  record.severity == .unknown && record.timestamp == "" &&
    record.context.isEmpty

/-- The timestamp with a blank after it, if there is one. -/
def displayTimestamp (styling : Styling) (record : Record) : String :=
  if record.timestamp = "" then ""
  else styling.wrap "2" record.timestamp ++ " "

/-- The context, each pair after a blank. -/
def displayContext (styling : Styling) (record : Record) : String :=
  String.join (record.contextPairs.map fun (key, value) =>
    " " ++ styling.wrap "36" key ++ "=" ++ value)

/-- A record as a single terminal line. -/
def display (styling : Styling) (record : Record) : String :=
  if record.isBare then record.message
  else
    record.displayTimestamp styling ++
      styling.wrap record.severity.style record.severity.tag ++ " " ++
      record.message ++ record.displayContext styling

end Record
end LogPager
