import LogPager.Request.Slots

/-!
# What becomes of request slots

Making a request takes the free slot of its edge, a reply to the request that
holds a slot frees it, and cancelling frees both.  Any other reply leaves the
slots as they are.
-/

namespace LogPager

theorem PerEdge.get_set (values : PerEdge α) (edge other : Edge) (value : α) :
    (values.set edge value).get other =
      if other = edge then value else values.get other := by
  cases edge <;> cases other <;> rfl

namespace Slots

/-- The slots after that of an edge was freed. -/
def freed (state : Slots) (edge : Edge) (status : SlotStatus) : Slots :=
  { state with slots := state.slots.set edge { holder := none, status } }

/-- The request that is made for an edge. -/
def nextRequest (state : Slots) (file : FileRef) (edge : Edge)
    (anchor : Option Nat) (limit : Nat) : Request :=
  { id := state.lastId + 1
    epoch := state.epoch
    file, edge, anchor, limit
    token := state.flags.newToken.1 }

/-- The slots after a request was made for an edge. -/
def occupied (state : Slots) (edge : Edge) : Slots :=
  { state with
    lastId := state.lastId + 1
    slots := state.slots.set edge
      { holder := some { id := state.lastId + 1, token := state.flags.newToken.1 }
        status := .pending }
    flags := state.flags.newToken.2 }

theorem issue_eq (state : Slots) (file : FileRef) (edge : Edge)
    (anchor : Option Nat) (limit : Nat) (reached : Bool) :
    state.issue file edge anchor limit reached =
      if reached || state.isInFlight edge then none
      else some (state.nextRequest file edge anchor limit,
        state.occupied edge) :=
  rfl

theorem release_eq (state : Slots) (request : Request) (status : SlotStatus) :
    state.release request status =
      if request.epoch = state.epoch then
        if state.holds request then .ok (state.freed request.edge status)
        else .error .unknownRequest
      else .error .supersededFile := by
  unfold release
  split <;> simp_all [freed]

theorem holds_iff {state : Slots} {request : Request} :
    state.holds request = true ↔
      ∃ holder, (state.slots.get request.edge).holder = some holder ∧
        holder.id = request.id := by
  simp [holds, Option.any_eq_true]

theorem isInFlight_iff {state : Slots} {edge : Edge} :
    state.isInFlight edge = true ↔
      ∃ holder, (state.slots.get edge).holder = some holder := by
  simp [isInFlight, Option.isSome_iff_exists]

theorem isInFlight_of_holds {state : Slots} {request : Request}
    (holds : state.holds request = true) :
    state.isInFlight request.edge = true := by
  obtain ⟨holder, slot, _⟩ := holds_iff.mp holds
  exact isInFlight_iff.mpr ⟨holder, slot⟩

theorem not_holds_of_idle {state : Slots} {request : Request} {edge : Edge}
    (toward : request.edge = edge) (idle : state.isInFlight edge = false) :
    ¬state.holds request = true := by
  intro holds
  have flying := isInFlight_of_holds holds
  rw [toward, idle] at flying
  cases flying

theorem holder_freed {state : Slots} {edge other : Edge} {status : SlotStatus}
    {holder : Holder}
    (holds : ((state.freed edge status).slots.get other).holder = some holder) :
    other ≠ edge ∧ (state.slots.get other).holder = some holder := by
  simp only [freed, PerEdge.get_set] at holds
  split at holds
  · cases holds
  · rename_i different
    exact ⟨different, holds⟩

theorem holder_occupied {state : Slots} {edge other : Edge} {holder : Holder}
    (holds : ((state.occupied edge).slots.get other).holder = some holder) :
    (other = edge ∧ holder =
        { id := state.lastId + 1, token := state.flags.newToken.1 }) ∨
      (other ≠ edge ∧ (state.slots.get other).holder = some holder) := by
  simp only [occupied, PerEdge.get_set] at holds
  split at holds
  · rename_i same
    cases holds
    exact .inl ⟨same, rfl⟩
  · rename_i different
    exact .inr ⟨different, holds⟩

theorem holder_cancelAll (state : Slots) (edge : Edge) :
    (state.cancelAll.slots.get edge).holder = none := by
  cases edge <;> rfl

end Slots
end LogPager
