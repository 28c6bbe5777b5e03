import LogPager.Edge

/-!
# What a viewer sees change

Each edge of a window has a version that only ever grows.  A viewer remembers
the versions it drew last and redraws the edges whose version moved.
-/

namespace LogPager

/-- Change counters of the two edges. -/
abbrev Versions := PerEdge Nat

namespace Versions

def bump (versions : Versions) (edge : Edge) : Versions :=
  versions.modify edge (· + 1)

def bumpBoth (versions : Versions) : Versions :=
  (versions.bump .older).bump .newer

end Versions

/-- What a viewer reads of a window after every update. -/
structure View where
  versions : Versions := .both 0
  /-- Whether the file has nothing beyond the edge. -/
  reached : PerEdge Bool := .both false
deriving DecidableEq, Repr

/-- The region of a view that needs drawing again. -/
inductive Redraw where
  | none | top | bottom | both
deriving DecidableEq, Repr

namespace Redraw

def ofFlags : (top bottom : Bool) → Redraw
  | false, false => none
  | true, false => top
  | false, true => bottom
  | true, true => both

def hasTop (redraw : Redraw) : Bool :=
  redraw == top || redraw == both

def hasBottom (redraw : Redraw) : Bool :=
  redraw == bottom || redraw == both

@[simp] theorem hasTop_ofFlags (top bottom : Bool) :
    (ofFlags top bottom).hasTop = top := by
  cases top <;> cases bottom <;> rfl

@[simp] theorem hasBottom_ofFlags (top bottom : Bool) :
    (ofFlags top bottom).hasBottom = bottom := by
  cases top <;> cases bottom <;> rfl

end Redraw

/-- A viewer's memory of the versions it drew last. -/
structure Observer where
  lastSeen : Option Versions := none
deriving DecidableEq, Repr

/-- What changed since the last observation, which at first is everything,
and the memory of this one. -/
def Observer.observe (observer : Observer) (view : View) : Redraw × Observer :=
  let redraw := match observer.lastSeen with
    | none => Redraw.both
    | some seen =>
        Redraw.ofFlags (view.versions.older != seen.older)
          (view.versions.newer != seen.newer)
  (redraw, { lastSeen := some view.versions })

end LogPager
