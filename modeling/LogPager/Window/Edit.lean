import LogPager.Window.Merge

/-!
# Editing a window in place

The owner of a window does not replace it but changes one part of it after
another.  An edit may fail on the way, and a failure undoes nothing of what was
changed before it.
-/

namespace LogPager.Window

/-- A change of a window in place, which may fail. -/
abbrev Edit (α : Type) := ExceptT SpliceError (StateM Window) α

namespace Edit

/-- What an edit comes to, and the window that it leaves. -/
def apply (edit : Edit α) (window : Window) : Except SpliceError α × Window :=
  StateT.run (ExceptT.run edit) window

/-- Go on only if the received position is the next one beyond the held
position, if any. -/
def requireAbutting (edge : Edge) (received : Nat) : Edit Unit := do
  match (← get).edge? edge with
  | none => return
  | some held =>
      if edge.abuts held received then return
      else throw (.gap edge held received)

/-- Join a page that abuts an edge exactly. -/
def append (page : Page) (edge : Edge) : Edit Unit := do
  match page.facing? edge with
  | none => return
  | some received =>
      requireAbutting edge received
      modify fun window =>
        { window with length := window.length + page.length }
      modify fun window =>
        { window with blocks := joinBlocks edge page.records window.blocks }
      modify reshow

/-- Join a page to a window without records. -/
def fill (page : Page) (edge : Edge) : Edit Nat := do
  append page edge
  return page.length

/-- Join the part of a page beyond the held edge. -/
def splice (page : Page) (edge : Edge) : Edit Nat := do
  match page.facing? edge, (← get).edge? edge with
  | some received, some held =>
      if edge.leavesGap held received then throw (.gap edge held received)
      else
        let beyond := page.keepBeyond edge held
        append beyond edge
        return beyond.length
  | _, _ => return 0

/-- Merge a fetched page. -/
def mergeFetched (page : Page) (fetched : Fetched) : Edit Movement := do
  let wasEmpty := (← get).isEmpty
  let added ←
    if wasEmpty then fill page fetched.edge else splice page fetched.edge
  if 0 < added then
    modify fun window =>
      if wasEmpty then window.bumpBoth else window.bump fetched.edge
  modify (·.noteBoundary fetched wasEmpty page.length)
  return Movement.add {} fetched.edge added

/-- Merge a page that was pushed, while the live end of the file is held. -/
def mergeLive (page : Page) : Edit Movement := do
  let window ← get
  if !window.reached.newer || page.isEmpty then return {}
  else
    let added ←
      if window.isEmpty then fill page .newer else splice page .newer
    if 0 < added then
      modify (·.bump .newer)
    return Movement.add {} .newer added

end Edit
end LogPager.Window
