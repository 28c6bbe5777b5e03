import LogPager.Settings.Basic

/-!
# Options of the command line

What the user asks for on the command line, and how it changes the loaded
settings.
-/

namespace LogPager

structure Options where
  /-- The folder of the log files. -/
  dir : Option String := none
  file : Option String := none
  /-- The settings file to use in place of those that are found. -/
  config : Option String := none
  /-- The records asked for at a time. -/
  limit : Option Nat := none
  /-- How many of the last records are printed. -/
  lines : Nat := 20
  /-- Go on printing records as they are appended. -/
  follow : Bool := false
  /-- Print the names of the log files only. -/
  list : Bool := false
  verbose : Bool := false
deriving DecidableEq, Repr

namespace Options

/-- The settings under the options.  The bound is raised so that a page and
the printed records fit into it. -/
def apply (options : Options) (settings : Settings) : Settings :=
  let fetchLimit := options.limit.elim settings.fetchLimit (max · 1)
  { settings with
    dir := options.dir.or settings.dir
    fetchLimit
    maxRecords := settings.maxRecords.map fun most =>
      max (max most fetchLimit) options.lines }

def diagnosticsFilter (verbose : Bool) : String :=
  if verbose then "chunktail=debug,warn" else "warn"

end Options

/-- The folder of the log files; without a setting the current one. -/
def Settings.folder (settings : Settings) : String :=
  settings.dir.getD "."

end LogPager
