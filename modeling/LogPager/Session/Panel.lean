import LogPager.Session.Basic

/-!
# Panels over a session

A panel shows some rows of the window from a top index on.  Scrolling near an
edge asks for more records there, and after the window changed the panel keeps
showing the record it showed at its top.
-/

namespace LogPager

/-- The scroll state of a panel of log records. -/
structure LogPanel where
  /-- Index of the first visible record. -/
  top : Nat := 0
  /-- Visible rows. -/
  rows : Nat
  /-- How near to an edge asks for more. -/
  band : Nat
  observer : Observer := {}
deriving DecidableEq, Repr

namespace LogPanel

/-- The edges within the band of the visible rows, when `held` records are
held. -/
def edgesNear (panel : LogPanel) (held : Nat) : List Edge :=
  (if panel.top ≤ panel.band then [.older] else []) ++
    (if held ≤ panel.top + panel.rows + panel.band then [.newer] else [])

/-- Move the top by what was added or dropped before it, and keep it on a held
record. -/
def reanchor (panel : LogPanel) (anchor : Nat) (movement : Movement)
    (held : Nat) : LogPanel :=
  let shifted := (anchor : Int) + movement.indexShift
  { panel with top := min shifted.toNat (held - 1) }

end LogPanel

/-- What a container shows.  Only a log panel reacts to scrolling and to
updates. -/
inductive Content where
  | logs (panel : LogPanel)
  | placeholder
deriving DecidableEq, Repr

namespace Content

/-- Ask for more records at each edge in turn, and how many requests were
made. -/
def requestEdges (session : Session) (edges : List Edge) : Nat × Session :=
  edges.foldl
    (fun (count, session) edge =>
      let (made, session) := session.requestMore edge
      (if made then count + 1 else count, session))
    (0, session)

/-- The viewer scrolled to a top index: how many requests that made. -/
def scroll (content : Content) (top : Nat) (session : Session) :
    Nat × Content × Session :=
  match content with
  | .placeholder => (0, .placeholder, session)
  | .logs panel =>
      let panel := { panel with top }
      let (count, session) :=
        requestEdges session (panel.edgesNear session.held)
      (count, .logs panel, session)

def anchor? : Content → Option Nat
  | .logs panel => some panel.top
  | .placeholder => none

/-- Put the panel where its anchor moved to, and what needs drawing again. -/
def update (content : Content) (anchor : Option Nat) (movement : Movement)
    (session : Session) : Redraw × Content :=
  match content, anchor with
  | .logs panel, some anchor =>
      let panel := panel.reanchor anchor movement session.held
      let (redraw, observer) := panel.observer.observe session.view
      (redraw, .logs { panel with observer })
  | content, _ => (.none, content)

end Content
end LogPager
