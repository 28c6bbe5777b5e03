import LogPager.CommandLine.Options
import LogPager.Text.Digits

/-!
# Reading arguments

Arguments are read from left to right.  A value is stored only when the next
option or positional argument comes, or at the end, so that an unknown
argument is reported before a wrong value that precedes it.
-/

namespace LogPager

/-- Why the arguments were refused. -/
inductive UsageError where
  | unknownArgument
  /-- An option needs a value, or one that is not empty. -/
  | missingValue
  /-- A value is no number. -/
  | wrongNumber
  /-- An argument may be given only once. -/
  | repeated
  /-- A value is attached to an argument without values. -/
  | unexpectedValue
  | help
deriving DecidableEq, Repr

namespace Arguments

/-- Arguments that take a value. -/
inductive Valued where
  | dir | file | config | limit | lines
deriving DecidableEq, Repr

/-- Arguments without a value. -/
inductive Flag where
  | follow | list | verbose | help
deriving DecidableEq, Repr

/-- What an option name stands for. -/
inductive Meaning where
  | valued (target : Valued)
  | flag (flag : Flag)
deriving DecidableEq, Repr

def ofLongName? : String → Option Meaning
  | "file" => some (.valued .file)
  | "config" => some (.valued .config)
  | "limit" => some (.valued .limit)
  | "lines" => some (.valued .lines)
  | "follow" => some (.flag .follow)
  | "list" => some (.flag .list)
  | "verbose" => some (.flag .verbose)
  | "help" => some (.flag .help)
  | _ => none

def ofShortName? : Char → Option Meaning
  | 'f' => some (.valued .file)
  | 'n' => some (.valued .lines)
  | 'F' => some (.flag .follow)
  | 'v' => some (.flag .verbose)
  | 'h' => some (.flag .help)
  | _ => none

/-- What is read so far. -/
structure State where
  options : Options := {}
  /-- Arguments stored so far. -/
  given : List Meaning := []
  /-- An argument that is not stored yet, with its value if that has come. -/
  pending : Option (Valued × Option String) := none
  /-- All further arguments are positional. -/
  onlyPositional : Bool := false
deriving DecidableEq, Repr

/-- A path that is not empty. -/
def path (value : String) : Except UsageError String :=
  if value = "" then .error .missingValue else .ok value

def number (value : String) : Except UsageError Nat :=
  (Text.readWord? value.toList).elim (.error .wrongNumber) .ok

def setValue (options : Options) (target : Valued) (value : String) :
    Except UsageError Options :=
  match target with
  | .dir => (path value).map ({ options with dir := some · })
  | .file => .ok { options with file := some value }
  | .config => (path value).map ({ options with config := some · })
  | .limit => (number value).map ({ options with limit := some · })
  | .lines => (number value).map ({ options with lines := · })

def setFlag (options : Options) (flag : Flag) : Except UsageError Options :=
  match flag with
  | .follow => .ok { options with follow := true }
  | .list => .ok { options with list := true }
  | .verbose => .ok { options with verbose := true }
  | .help => .error .help

/-- Store an argument that was not stored before. -/
def State.store (state : State) (meaning : Meaning)
    (set : Options → Except UsageError Options) : Except UsageError State :=
  if meaning ∈ state.given then .error .repeated
  else
    (set state.options).map fun options =>
      { state with options, given := meaning :: state.given }

/-- Store an argument with its value, which must have come. -/
def State.storeValue (state : State) (target : Valued)
    (value : Option String) : Except UsageError State :=
  match value with
  | none => .error .missingValue
  | some value =>
      state.store (.valued target) fun options => setValue options target value

/-- Store the argument that is not stored yet. -/
def State.resolve (state : State) : Except UsageError State :=
  match state.pending with
  | none => .ok state
  | some (target, value) =>
      { state with pending := none }.storeValue target value

def State.takeFlag (state : State) (flag : Flag) : Except UsageError State := do
  let state ← state.resolve
  state.store (.flag flag) (setFlag · flag)

def State.takeOption (state : State) (target : Valued)
    (attached : Option String) : Except UsageError State := do
  let state ← state.resolve
  match attached with
  | some value => state.storeValue target (some value)
  | none => return { state with pending := some (target, none) }

/-- Take an argument by its place.  Only the folder has one. -/
def State.takePositional (state : State) (value : String) :
    Except UsageError State :=
  let isDir (target : Valued) : Bool := target == .dir
  if Meaning.valued .dir ∈ state.given ∨
      state.pending.any (fun pending => isDir pending.1) then
    .error .unknownArgument
  else
    state.resolve.map fun state =>
      { state with pending := some (.dir, some value) }

/-- Take a long option, written without its two dashes. -/
def State.takeLong (state : State) (text : List Char) :
    Except UsageError State :=
  let name := text.takeWhile (· ≠ '=')
  let attached :=
    match text.dropWhile (· ≠ '=') with
    | _ :: value => some (String.ofList value)
    | [] => none
  match ofLongName? (String.ofList name), attached with
  | none, _ => .error .unknownArgument
  | some (.flag _), some _ => .error .unexpectedValue
  | some (.flag flag), none => state.takeFlag flag
  | some (.valued target), attached => state.takeOption target attached

/-- The value attached to a short option, with or without an equals sign. -/
def attachedValue? : List Char → Option String
  | [] => none
  | '=' :: value => some (String.ofList value)
  | value => some (String.ofList value)

/-- Take short options written together, without their dash. -/
def State.takeShort (state : State) : List Char → Except UsageError State
  | [] => .ok state
  | name :: rest =>
      match ofShortName? name with
      | none => .error .unknownArgument
      | some (.valued target) => state.takeOption target (attachedValue? rest)
      | some (.flag flag) =>
          match state.takeFlag flag with
          | .error error => .error error
          | .ok state => state.takeShort rest

/-- Take an argument that is no option. -/
def State.takePlain (state : State) (text : String) :
    Except UsageError State :=
  match state.pending with
  | some (target, none) =>
      .ok { state with pending := some (target, some text) }
  | _ => state.takePositional text

def State.take (state : State) (text : String) : Except UsageError State :=
  if state.onlyPositional then state.takePositional text
  else
    match text.toList with
    | ['-', '-'] => .ok { state with onlyPositional := true }
    | '-' :: '-' :: long => state.takeLong long
    | '-' :: name :: rest => state.takeShort (name :: rest)
    | _ => state.takePlain text

end Arguments

def Options.ofArguments (arguments : List String) :
    Except UsageError Options := do
  let state ← arguments.foldlM Arguments.State.take {}
  let state ← state.resolve
  return state.options

end LogPager
