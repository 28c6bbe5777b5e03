import LogPager.Proofs.Window.Movements

/-!
# Where records stand after a movement

A merge puts records at one edge, and keeping the bound then takes some from one
edge.  Positions tell the held records apart, so a record that is still held
stands exactly as far from where it stood as the movement shifts.  A record that
is gone would stand beyond the edge where records were evicted.
-/

namespace LogPager

namespace Edge

/-- How many items come before all others when some are put at an edge. -/
def offset (edge : Edge) (count : Nat) : Nat :=
  match edge with
  | older => count
  | newer => 0

theorem getElem?_put {edge : Edge} {items held : List α} {index : Nat}
    (inside : index < held.length) :
    (edge.put items held)[index + edge.offset items.length]? = held[index]? := by
  cases edge with
  | older =>
      rw [put, offset, List.getElem?_append_right (Nat.le_add_left _ _),
        Nat.add_sub_cancel]
  | newer => rw [put, offset, Nat.add_zero, List.getElem?_append_left inside]

theorem getElem?_drop {edge : Edge} {amount : Nat} {items : List α}
    {index : Nat} (inside : index < (edge.drop amount items).length) :
    (edge.drop amount items)[index]? = items[index + edge.offset amount]? := by
  cases edge with
  | older => rw [drop, offset, List.getElem?_drop, Nat.add_comm]
  | newer =>
      rw [length_drop] at inside
      rw [drop, offset, Nat.add_zero, List.getElem?_take_of_lt inside]

/-- An index beyond an edge of so many items. -/
def Beyond (edge : Edge) (count : Nat) (index : Int) : Prop :=
  match edge with
  | older => index < 0
  | newer => count ≤ index

theorem beyond_of_dropped {edge : Edge} {amount : Nat} {items : List α}
    {item : α} {index : Nat} (found : items[index]? = some item)
    (gone : item ∉ edge.drop amount items) :
    0 < amount ∧ edge.Beyond (items.length - amount)
      ((index : Int) - edge.offset amount) := by
  have inside : index < items.length := (List.getElem?_eq_some_iff.mp found).1
  have outside : ¬(edge.offset amount ≤ index ∧
      index - edge.offset amount < (edge.drop amount items).length) := by
    rintro ⟨after, within⟩
    apply gone
    apply List.mem_of_getElem? (i := index - edge.offset amount)
    rw [getElem?_drop within, Nat.sub_add_cancel after, found]
  rw [length_drop] at outside
  cases edge with
  | older =>
      simp only [offset, Beyond] at outside ⊢
      omega
  | newer =>
      simp only [offset, Beyond] at outside ⊢
      omega

end Edge

namespace Record

theorem index_unique {records : List Record}
    (ordered : records.Pairwise Before) {first second : Nat} {record : Record}
    (here : records[first]? = some record)
    (there : records[second]? = some record) : first = second := by
  have distinct : records.Nodup := by
    apply ordered.imp
    intro earlier later before same
    rw [same] at before
    exact Nat.lt_irrefl _ before
  have inside : first < records.length := (List.getElem?_eq_some_iff.mp here).1
  exact (List.getElem?_inj inside distinct).mp (here.trans there.symm)

end Record

namespace Movement

/-- Records are evicted from this edge alone. -/
def EvictsFrom (movement : Movement) (edge : Edge) : Prop :=
  movement.evicted.get edge ≠ 0 ∧ movement.evicted.get edge.opposite = 0

/-- Records came to one edge, and then some of all went from one edge. -/
def Rearranges (movement : Movement) (before after : List Record) : Prop :=
  ∃ (grown : Edge) (items : List Record) (yielding : Edge) (amount : Nat),
    movement = (add {} grown items.length).evict yielding amount ∧
    (grown.put items before).Pairwise Record.Before ∧
    after = yielding.drop amount (grown.put items before)

theorem indexShift_evict_add (grown yielding : Edge) (count amount : Nat) :
    ((add {} grown count).evict yielding amount).indexShift =
      (grown.offset count : Int) - yielding.offset amount := by
  cases grown <;> cases yielding <;>
    simp [indexShift, evict, add, PerEdge.modify, PerEdge.set, PerEdge.get,
      PerEdge.both, Edge.offset]

theorem evictsFrom_evict_add (grown yielding : Edge) (count : Nat)
    {amount : Nat} (some : 0 < amount) :
    ((add {} grown count).evict yielding amount).EvictsFrom yielding := by
  constructor
  · rw [evicted_evict, evicted_add, if_pos rfl]
    omega
  · cases yielding <;> rfl

namespace Rearranges

theorem still {records : List Record}
    (ordered : records.Pairwise Record.Before) :
    Rearranges {} records records := by
  refine ⟨.newer, [], .newer, 0, rfl, ?_, ?_⟩
  · rw [Edge.put_nil]
    exact ordered
  · rw [Edge.put_nil, Edge.drop_zero]

theorem kept {movement : Movement} {before after : List Record}
    (rearranges : movement.Rearranges before after) {index : Nat}
    {record : Record} (found : before[index]? = some record)
    (held : record ∈ after) :
    ∃ place : Nat, after[place]? = some record ∧
      (place : Int) = index + movement.indexShift := by
  obtain ⟨grown, items, yielding, amount, rfl, ordered, rfl⟩ := rearranges
  obtain ⟨place, kept⟩ := List.mem_iff_getElem?.mp held
  have inside := (List.getElem?_eq_some_iff.mp kept).1
  have came : (grown.put items before)[index + grown.offset items.length]? =
      some record := by
    rw [Edge.getElem?_put (List.getElem?_eq_some_iff.mp found).1, found]
  have stayed : (grown.put items before)[place + yielding.offset amount]? =
      some record := by
    rw [← Edge.getElem?_drop inside, kept]
  have same := Record.index_unique ordered came stayed
  refine ⟨place, kept, ?_⟩
  rw [indexShift_evict_add]
  omega

/-- A record that is gone would stand beyond the one edge where records were
evicted. -/
theorem gone {movement : Movement} {before after : List Record}
    (rearranges : movement.Rearranges before after) {index : Nat}
    {record : Record} (found : before[index]? = some record)
    (lost : record ∉ after) :
    ∃ edge, movement.EvictsFrom edge ∧
      edge.Beyond after.length (index + movement.indexShift) := by
  obtain ⟨grown, items, yielding, amount, rfl, _, rfl⟩ := rearranges
  have came : (grown.put items before)[index + grown.offset items.length]? =
      some record := by
    rw [Edge.getElem?_put (List.getElem?_eq_some_iff.mp found).1, found]
  obtain ⟨positive, beyond⟩ := Edge.beyond_of_dropped came lost
  refine ⟨yielding, evictsFrom_evict_add _ _ _ positive, ?_⟩
  rw [Edge.length_drop, indexShift_evict_add]
  convert beyond using 1
  omega

end Rearranges

end Movement

namespace Window

theorem Sound.rearranges_enforceBound {grown : Window} (sound : grown.Sound)
    {edge : Edge} {items before : List Record}
    (records : grown.records = edge.put items before) (bound : Option Nat)
    (toward : Edge) (inFlight : Edge → Bool) :
    (grown.enforceBound bound toward inFlight
        (Movement.add {} edge items.length)).1.Rearranges before
      (grown.enforceBound bound toward inFlight
        (Movement.add {} edge items.length)).2.records := by
  have ordered := sound.ordered
  rw [records] at ordered
  rcases sound.enforceBound bound toward inFlight
      (Movement.add {} edge items.length) with
    ⟨unchanged, _⟩ | ⟨most, after, _, _, _, step, loses⟩
  · rw [unchanged]
    refine ⟨edge, items, .newer, 0, rfl, ordered, ?_⟩
    rw [records, Edge.drop_zero]
  · rw [step]
    refine ⟨edge, items, _, _, rfl, ordered, ?_⟩
    rw [← records]
    exact loses.records

/-- Only the edge that gives way is evicted from, and only while nothing is
asked for there. -/
theorem Sound.yields_of_evicted {grown : Window} (sound : grown.Sound)
    {bound : Option Nat} {toward : Edge} {inFlight : Edge → Bool}
    {movement : Movement} {edge : Edge}
    (kept : movement.evicted.get edge = 0)
    (evicted : (grown.enforceBound bound toward inFlight movement).1.evicted.get
      edge ≠ 0) :
    edge = grown.yieldingEdge toward ∧ inFlight edge = false := by
  rcases sound.enforceBound bound toward inFlight movement with
    ⟨unchanged, _⟩ | ⟨most, after, _, _, free, step, _⟩
  · rw [unchanged] at evicted
    exact (evicted kept).elim
  · rw [step, Movement.evicted_evict, kept, Nat.zero_add] at evicted
    have here : edge = grown.yieldingEdge toward := by
      by_contra other
      exact evicted (if_neg other)
    exact ⟨here, here ▸ free⟩

end Window
end LogPager
