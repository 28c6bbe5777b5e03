/-!
# Cancellation

A cancel token is a handle on one flag.  Copies of a token are handles on the
same flag, and a flag once raised stays raised.
-/

namespace LogPager

/-- A handle on a flag. -/
structure CancelToken where
  flag : Nat
deriving DecidableEq, Repr

/-- The flags of all tokens made so far, in the order they were made. -/
structure CancelFlags where
  raised : List Bool := []
deriving DecidableEq, Repr

namespace CancelFlags

def newToken (flags : CancelFlags) : CancelToken × CancelFlags :=
  (⟨flags.raised.length⟩, ⟨flags.raised ++ [false]⟩)

def cancel (flags : CancelFlags) (token : CancelToken) : CancelFlags :=
  ⟨flags.raised.set token.flag true⟩

def isCancelled (flags : CancelFlags) (token : CancelToken) : Bool :=
  flags.raised[token.flag]?.getD false

end CancelFlags
end LogPager
