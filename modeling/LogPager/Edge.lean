/-!
# Edges of a window

A window onto a log file has an older and a newer edge, and every request and
every merge is directed toward one of them.
-/

namespace LogPager

/-- An edge of a window: toward the start of the file or toward its live
end. -/
inductive Edge where
  | older | newer
deriving DecidableEq, Repr, Inhabited

namespace Edge

def opposite : Edge → Edge
  | older => newer
  | newer => older

def name : Edge → String
  | older => "older"
  | newer => "newer"

def ofName? : String → Option Edge
  | "older" => some older
  | "newer" => some newer
  | _ => none

theorem ofName?_name (edge : Edge) : ofName? edge.name = some edge := by
  cases edge <;> rfl

@[simp] theorem opposite_opposite (edge : Edge) :
    edge.opposite.opposite = edge := by
  cases edge <;> rfl

end Edge

/-- A value for each edge. -/
structure PerEdge (α : Type) where
  older : α
  newer : α
deriving DecidableEq, Repr

namespace PerEdge

def get (values : PerEdge α) : Edge → α
  | .older => values.older
  | .newer => values.newer

def set (values : PerEdge α) (edge : Edge) (value : α) : PerEdge α :=
  match edge with
  | .older => { values with older := value }
  | .newer => { values with newer := value }

def modify (values : PerEdge α) (edge : Edge) (change : α → α) : PerEdge α :=
  values.set edge (change (values.get edge))

def zipWith (combine : α → β → γ) (left : PerEdge α) (right : PerEdge β) :
    PerEdge γ :=
  { older := combine left.older right.older
    newer := combine left.newer right.newer }

def both (value : α) : PerEdge α :=
  { older := value, newer := value }

@[simp] theorem get_set_same (values : PerEdge α) (edge : Edge) (value : α) :
    (values.set edge value).get edge = value := by
  cases edge <;> rfl

@[simp] theorem get_set_opposite (values : PerEdge α) (edge : Edge)
    (value : α) :
    (values.set edge value).get edge.opposite = values.get edge.opposite := by
  cases edge <;> rfl

@[simp] theorem get_both (value : α) (edge : Edge) :
    (both value).get edge = value := by
  cases edge <;> rfl

@[simp] theorem get_zipWith (combine : α → β → γ) (left : PerEdge α)
    (right : PerEdge β) (edge : Edge) :
    (zipWith combine left right).get edge =
      combine (left.get edge) (right.get edge) := by
  cases edge <;> rfl

end PerEdge
end LogPager
