import LogPager.Text.Blank
import LogPager.Text.Digits

/-!
# Severity of a record

Severities are ordered from the gravest to the least, with the unknown one
last.  They are read from the usual spellings or from a verbosity number.
-/

namespace LogPager

/-- How grave a record is; the declaration order is the order of severities. -/
inductive Severity where
  | crit | error | warn | info | debug | trace | unknown
deriving DecidableEq, Repr, Inhabited

namespace Severity

/-- Verbosity zero is critical and five is trace. -/
def ofVerbosity : Nat → Severity
  | 0 => crit
  | 1 => error
  | 2 => warn
  | 3 => info
  | 4 => debug
  | 5 => trace
  | _ => unknown

def name : Severity → String
  | crit => "crit"
  | error => "error"
  | warn => "warn"
  | info => "info"
  | debug => "debug"
  | trace => "trace"
  | unknown => "unknown"

/-- The recognised lowercase spellings. -/
def ofSpelling? : String → Option Severity
  | "crit" | "critical" | "fatal" => some crit
  | "eror" | "error" | "err" => some error
  | "warn" | "warning" => some warn
  | "info" => some info
  | "dbug" | "debug" => some debug
  | "trce" | "trace" => some trace
  | _ => none

/-- Read a severity: blanks at the ends and ASCII case do not matter, and a
text that is no spelling may be a verbosity number. -/
def parse (text : String) : Severity :=
  let word := (Text.trim text.toList).map Char.toLower
  match ofSpelling? (String.ofList word) with
  | some severity => severity
  | none => (Text.readWord? word).elim unknown ofVerbosity

/-- Place in the order of severities. -/
def rank (severity : Severity) : Nat :=
  severity.ctorIdx

/-- The order of severities, the gravest first. -/
def compare (left right : Severity) : Ordering :=
  Ord.compare left.rank right.rank

end Severity
end LogPager
