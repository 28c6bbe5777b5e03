import LogPager.Proofs.Window.Movements
import Mathlib.Data.List.Chain

/-!
# Seams between held and merged records

Where a page is joined to held records, the record at the seam has the next
position.  So whatever relates every record to the one at the next position,
and the neighbours within each page, relates the neighbours in a window.
-/

namespace LogPager

/-- The right record has the position after that of the left one. -/
def Record.Adjoins (left right : Record) : Prop :=
  right.position = left.position + 1

instance (left right : Record) : Decidable (left.Adjoins right) :=
  inferInstanceAs (Decidable (right.position = left.position + 1))

/-- The innermost of new items is next to the held item at the edge, if there
are both. -/
def Edge.Seamless (edge : Edge) (items held : List Record) : Prop :=
  ∀ outer, edge.opposite.item? items = some outer →
    ∀ inner, edge.item? held = some inner →
      edge.abuts inner.position outer.position = true

theorem Edge.Seamless.of_empty {edge : Edge} {items held : List Record}
    (empty : held = []) : edge.Seamless items held := by
  intro outer _ inner found
  rw [Edge.item?_eq_none.mpr empty] at found
  cases found

theorem Edge.Seamless.isChain_put {edge : Edge} {items held : List Record}
    (seamless : edge.Seamless items held) {Linked : Record → Record → Prop}
    (adjoining : ∀ left right, left.Adjoins right → Linked left right)
    (itemsLinked : items.IsChain Linked) (heldLinked : held.IsChain Linked) :
    (edge.put items held).IsChain Linked := by
  cases edge with
  | older =>
      refine itemsLinked.append heldLinked ?_
      intro outer atEnd inner atFront
      have next := seamless outer atEnd inner atFront
      apply adjoining
      exact (beq_iff_eq.mp next).symm
  | newer =>
      refine heldLinked.append itemsLinked ?_
      intro inner atEnd outer atFront
      have next := seamless outer atFront inner atEnd
      apply adjoining
      exact (beq_iff_eq.mp next).symm

theorem Edge.isChain_drop {edge : Edge} {amount : Nat} {items : List Record}
    {Linked : Record → Record → Prop} (linked : items.IsChain Linked) :
    (edge.drop amount items).IsChain Linked := by
  cases edge with
  | older => exact linked.drop amount
  | newer => exact linked.take _

theorem Page.isChain_beyond {page : Page} {Linked : Record → Record → Prop}
    (linked : page.records.IsChain Linked) (edge : Edge) (held : Option Nat) :
    (page.beyond edge held).IsChain Linked :=
  linked.infix (page.beyond_infix edge held)

namespace Window

/-- Only a page that abuts the held edge is appended. -/
theorem Sound.append_seamless {window after : Window} (sound : window.Sound)
    {page : Page} {edge : Edge}
    (appended : window.append page edge = .ok after) :
    edge.Seamless page.records window.records := by
  intro outer outerFound inner innerFound
  have facing : page.facing? edge = some outer.position := by
    rw [Page.facing?_eq, outerFound]
    rfl
  have held : window.edge? edge = some inner.position := by
    rw [sound.edge?_eq, innerFound]
    rfl
  simp only [Window.append, facing, held] at appended
  split at appended
  · assumption
  · cases appended

theorem Sound.splice_seamless {window after : Window} (sound : window.Sound)
    {page : Page} {edge : Edge} {added : Nat}
    (spliced : window.splice page edge = .ok (added, after)) :
    edge.Seamless (page.beyond edge (window.edge? edge)) window.records := by
  cases held : window.edge? edge with
  | none => exact .of_empty (sound.edge?_eq_none_iff.mp held)
  | some position =>
      cases facing : page.facing? edge with
      | none =>
          intro outer found
          rw [Page.beyond_of_records_eq_nil (Page.facing?_eq_none_iff.mp facing),
            Edge.item?_eq_none.mpr rfl] at found
          cases found
      | some received =>
          simp only [Window.splice, facing, held] at spliced
          split at spliced
          · cases spliced
          · cases appended :
                window.append (page.keepBeyond edge position) edge with
            | error error =>
                rw [appended] at spliced
                cases spliced
            | ok grown => exact sound.append_seamless appended

theorem Sound.mergeFetched_seamless {window after : Window}
    (sound : window.Sound) {page : Page} {fetched : Fetched}
    {movement : Movement}
    (merged : window.mergeFetched page fetched = .ok (movement, after)) :
    fetched.edge.Seamless
      (page.beyond fetched.edge (window.edge? fetched.edge)) window.records := by
  cases empty : window.isEmpty with
  | true => exact .of_empty (sound.isEmpty_iff.mp empty)
  | false =>
      cases spliced : window.splice page fetched.edge with
      | error error =>
          simp [Window.mergeFetched, empty, spliced, bind, Except.bind]
            at merged
      | ok grown => exact sound.splice_seamless spliced

theorem Sound.mergeLive_seamless {window after : Window} (sound : window.Sound)
    (live : window.reached.newer = true) {page : Page} {movement : Movement}
    (merged : window.mergeLive page = .ok (movement, after)) :
    Edge.newer.Seamless (page.beyond .newer (window.edge? .newer))
      window.records := by
  cases absent : page.isEmpty with
  | true =>
      intro outer found
      rw [Page.beyond_of_records_eq_nil (List.isEmpty_iff.mp absent),
        Edge.item?_eq_none.mpr rfl] at found
      cases found
  | false =>
      cases empty : window.isEmpty with
      | true => exact .of_empty (sound.isEmpty_iff.mp empty)
      | false =>
          cases spliced : window.splice page .newer with
          | error error =>
              simp [Window.mergeLive, live, absent, empty, spliced, bind,
                Except.bind] at merged
          | ok grown => exact sound.splice_seamless spliced

variable {Linked : Record → Record → Prop}

theorem Sound.mergeFetched_isChain {window after : Window}
    (sound : window.Sound) {page : Page} {fetched : Fetched}
    {movement : Movement}
    (adjoining : ∀ left right, left.Adjoins right → Linked left right)
    (held : window.records.IsChain Linked)
    (received : page.records.IsChain Linked)
    (merged : window.mergeFetched page fetched = .ok (movement, after)) :
    after.records.IsChain Linked := by
  rw [(sound.mergeFetched merged).records]
  exact (sound.mergeFetched_seamless merged).isChain_put adjoining
    (Page.isChain_beyond received _ _) held

theorem Sound.mergeLive_isChain {window after : Window} (sound : window.Sound)
    (live : window.reached.newer = true) {page : Page} {movement : Movement}
    (adjoining : ∀ left right, left.Adjoins right → Linked left right)
    (held : window.records.IsChain Linked)
    (received : page.records.IsChain Linked)
    (merged : window.mergeLive page = .ok (movement, after)) :
    after.records.IsChain Linked := by
  rw [(sound.mergeLive live merged).records]
  exact (sound.mergeLive_seamless live merged).isChain_put adjoining
    (Page.isChain_beyond received _ _) held

theorem Sound.enforceBound_isChain {window : Window} (sound : window.Sound)
    (held : window.records.IsChain Linked) (bound : Option Nat) (grown : Edge)
    (inFlight : Edge → Bool) (movement : Movement) :
    (window.enforceBound bound grown inFlight movement).2.records.IsChain
      Linked := by
  rcases sound.enforceBound bound grown inFlight movement with
    ⟨unchanged, _⟩ | ⟨_, after, _, _, _, step, loses⟩
  · rw [unchanged]
    exact held
  · rw [step, loses.records]
    exact Edge.isChain_drop held

end Window
end LogPager
