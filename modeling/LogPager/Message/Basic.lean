import LogPager.Record.Basic

/-!
# Messages of a log source

A message answers a request or announces appended lines.  Without a source it
carries no data and only shows that the other side is alive.
-/

namespace LogPager

/-- What a log source sends. -/
structure Message where
  source : Option FileRef := none
  records : List Record := []
  /-- The source has nothing beyond these records in the asked direction. -/
  boundary : Bool := false
deriving DecidableEq, Repr, Inhabited

/-- A message without a source. -/
def Message.isKeepalive (message : Message) : Bool :=
  message.source.isNone

end LogPager
