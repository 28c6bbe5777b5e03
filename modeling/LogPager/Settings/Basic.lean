import LogPager.Files.Path

/-!
# Settings

The settings of a session and the values a settings file may give for them.
Values of one file lie over those below it, and the result has to make sense
as a whole.
-/

namespace LogPager

/-- What a viewer can set. -/
structure Settings where
  /-- The folder of the log files. -/
  dir : Option String := none
  /-- The records asked for at a time. -/
  fetchLimit : Nat := 200
  /-- The most records held, none for no bound. -/
  maxRecords : Option Nat := some 10000
  /-- How near to an edge a panel asks for more. -/
  edgeBand : Nat := 20
deriving DecidableEq, Repr

/-- The values of one settings file; what it does not say stays as it was. -/
structure Overrides where
  dir : Option String := none
  fetchLimit : Option Nat := none
  maxRecords : Option Nat := none
  edgeBand : Option Nat := none
deriving DecidableEq, Repr

namespace Settings

/-- The settings with the values of a file over them.  A folder under the home
folder is written out. -/
def overlay (home : String) (settings : Settings) (overrides : Overrides) :
    Settings where
  dir := (overrides.dir.map (Path.expandHome home)).or settings.dir
  fetchLimit := overrides.fetchLimit.getD settings.fetchLimit
  maxRecords := overrides.maxRecords.or settings.maxRecords
  edgeBand := overrides.edgeBand.getD settings.edgeBand

/-- Why settings make no sense. -/
inductive Flaw where
  | noFetch
  | noRecords
  | boundBelowFetch
deriving DecidableEq, Repr

def Flaw.message : Flaw → String
  | noFetch => "fetch_limit must be greater than 0"
  | noRecords => "max_records must be greater than 0"
  | boundBelowFetch => "max_records must be at least fetch_limit"

/-- The first flaw of the settings: every request asks for a record, and what
it brings can be held. -/
def flaw? (settings : Settings) : Option Flaw :=
  if settings.fetchLimit = 0 then some .noFetch
  else if settings.maxRecords = some 0 then some .noRecords
  else if settings.maxRecords.any (· < settings.fetchLimit) then
    some .boundBelowFetch
  else none

theorem flaw?_eq_none_iff (settings : Settings) :
    settings.flaw? = none ↔
      0 < settings.fetchLimit ∧
        ∀ most, settings.maxRecords = some most → settings.fetchLimit ≤ most := by
  rcases settings with ⟨dir, fetchLimit, maxRecords, edgeBand⟩
  cases maxRecords with
  | none =>
      by_cases h : fetchLimit = 0
      · simp [flaw?, h]
      · simp [flaw?, h, Nat.pos_of_ne_zero h]
  | some most =>
      by_cases h : fetchLimit = 0
      · simp [flaw?, h]
      · by_cases zero : most = 0
        · simp [flaw?, h, zero]
        · by_cases below : most < fetchLimit
          · simp [flaw?, h, zero, below]
          · simp [flaw?, h, zero, below]
            omega

end Settings
end LogPager
