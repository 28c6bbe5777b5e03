import LogPager.Proofs.Source.Serving
import LogPager.Proofs.Window.Merging

/-!
# Intervals of the records of a file

The records between two lines of a file stand at consecutive positions.
Neighbouring intervals join, dropping records from the front leaves an
interval, and an interval of a file is one of every file that it has grown to.
-/

namespace LogPager

namespace LineRange

theorem slice_of_grown {range : LineRange} {items more : List α}
    (grown : items <+: more) (inside : range.stop ≤ items.length) :
    range.slice more = range.slice items := by
  obtain ⟨appended, rfl⟩ := grown
  rw [slice, slice, List.take_append_of_le_length inside]

theorem slice_append {left right : LineRange} {items : List α}
    (leftOrdered : left.start ≤ left.stop)
    (rightOrdered : right.start ≤ right.stop)
    (meet : left.stop = right.start) (inside : right.stop ≤ items.length) :
    left.slice items ++ right.slice items =
      slice { start := left.start, stop := right.stop } items := by
  have parts : items.take right.stop =
      items.take left.stop ++ (items.take right.stop).drop left.stop := by
    have joined := List.take_append_drop left.stop (items.take right.stop)
    rw [List.take_take, Nat.min_eq_left (meet ▸ rightOrdered)] at joined
    exact joined.symm
  have begins : left.start ≤ (items.take left.stop).length := by
    rw [List.length_take]
    omega
  calc
    left.slice items ++ right.slice items =
        (items.take left.stop ++
          (items.take right.stop).drop left.stop).drop left.start := by
      rw [List.drop_append_of_le_length begins, meet]
      rw [slice, slice, meet]
    _ = slice { start := left.start, stop := right.stop } items := by
      rw [← parts]
      rfl

theorem length_slice {range : LineRange} {items : List α}
    (inside : range.stop ≤ items.length) :
    (range.slice items).length = range.stop - range.start := by
  rw [slice, List.length_drop, List.length_take, Nat.min_eq_left inside]

theorem drop_slice (range : LineRange) (amount : Nat) (items : List α) :
    (range.slice items).drop amount =
      slice { start := range.start + amount, stop := range.stop } items :=
  List.drop_drop

theorem slice_eq_nil {range : LineRange} (empty : range.stop ≤ range.start)
    (items : List α) : range.slice items = [] := by
  apply List.drop_eq_nil_of_le
  rw [List.length_take]
  omega

theorem lt_of_slice_ne_nil {range : LineRange} {items : List α}
    (some : range.slice items ≠ []) : range.start < range.stop := by
  apply Nat.lt_of_not_le
  intro empty
  exact some (slice_eq_nil empty items)

/-- The positions of an interval are consecutive. -/
theorem map_position_slice {range : LineRange} {data : List UInt8}
    (inside : range.stop ≤ (fileRecords data).length) :
    (range.slice (fileRecords data)).map (·.position) = range.toList := by
  apply List.ext_getElem?
  intro index
  simp only [slice, toList, List.getElem?_map, List.getElem?_drop,
    List.getElem?_take]
  by_cases within : range.start + index < range.stop
  · have counted : index < range.stop - range.start := by omega
    have present : range.start + index < (fileRecords data).length := by omega
    have found := List.getElem?_eq_getElem present
    rw [if_pos within, found, List.getElem?_range' counted, Option.map_some,
      position_of_getElem?_fileRecords found, Nat.one_mul]
  · have beyond : range.stop - range.start ≤ index := by omega
    rw [if_neg within, List.getElem?_eq_none (by simpa using beyond)]
    rfl

theorem ordered_slice {range : LineRange} {data : List UInt8}
    (inside : range.stop ≤ (fileRecords data).length) :
    (range.slice (fileRecords data)).Pairwise Record.Before := by
  have positions : ((range.slice (fileRecords data)).map
      (·.position)).Pairwise (· < ·) := by
    rw [map_position_slice inside]
    exact List.pairwise_lt_range'
  rw [List.pairwise_map] at positions
  exact positions

/-- The last position of a range in the direction of an edge. -/
def outermost (range : LineRange) : Edge → Nat
  | .older => range.start
  | .newer => range.stop - 1

/-- The range comes right before or right after a position. -/
def Adjoins (range : LineRange) (edge : Edge) (position : Nat) : Prop :=
  match edge with
  | .older => range.stop = position
  | .newer => range.start = position + 1

/-- The lines that are selected next to a line of the file come right before or
right after it. -/
theorem select_adjoins {total position : Nat} (inside : position < total)
    (edge : Edge) (limit : Nat) :
    (select total edge (some position) limit).1.Adjoins edge position := by
  cases edge with
  | older =>
      simp only [select, Adjoins, Option.getD_some]
      omega
  | newer =>
      simp only [select, Adjoins, Option.elim_some]
      omega

theorem edge_slice {range : LineRange} {data : List UInt8}
    (inside : range.stop ≤ (fileRecords data).length)
    (some : range.start < range.stop) (edge : Edge) :
    (edge.item? (range.slice (fileRecords data))).map (·.position) =
      Option.some (range.outermost edge) := by
  have positions := map_position_slice inside
  have count : range.stop - range.start ≠ 0 := by omega
  cases edge with
  | older =>
      rw [Edge.item?, ← List.head?_map, positions, toList, List.head?_range']
      simp [count, outermost]
  | newer =>
      rw [Edge.item?, ← List.getLast?_map, positions, toList,
        List.getLast?_range']
      simp only [count, if_false, Option.some.injEq, outermost]
      omega

theorem abuts_slice {range : LineRange} {data : List UInt8}
    (inside : range.stop ≤ (fileRecords data).length) {edge : Edge}
    {position received : Nat} (adjoins : range.Adjoins edge position)
    (facing : (edge.opposite.item? (range.slice (fileRecords data))).map
      (·.position) = some received) :
    edge.abuts position received = true := by
  have present : range.slice (fileRecords data) ≠ [] := by
    intro absent
    rw [absent] at facing
    cases edge <;> cases facing
  have several := lt_of_slice_ne_nil present
  rw [edge_slice inside several] at facing
  cases facing
  cases edge with
  | older =>
      have last : range.stop = position := adjoins
      simp only [Edge.abuts, Edge.opposite, outermost, beq_iff_eq]
      omega
  | newer =>
      have first : range.start = position + 1 := adjoins
      simp only [Edge.abuts, Edge.opposite, outermost, beq_iff_eq]
      omega

end LineRange

/-- Records that are those of some interval of the complete lines of a
file. -/
def IsInterval (data : List UInt8) (records : List Record) : Prop :=
  ∃ range : LineRange, range.start ≤ range.stop ∧
    range.stop ≤ (completeLines data).length ∧
    records = range.slice (fileRecords data)

namespace IsInterval

theorem nil (data : List UInt8) : IsInterval data [] :=
  ⟨{ start := 0, stop := 0 }, Nat.le_refl _, Nat.zero_le _, rfl⟩

theorem grow {seen data : List UInt8} {records : List Record}
    (interval : IsInterval seen records) (grown : seen <+: data) :
    IsInterval data records := by
  obtain ⟨range, ordered, inside, rfl⟩ := interval
  refine ⟨range, ordered, ?_, ?_⟩
  · exact Nat.le_trans inside (completeLines_grow grown).length_le
  · rw [← length_fileRecords] at inside
    exact (LineRange.slice_of_grown (fileRecords_grow grown) inside).symm

theorem drop {data : List UInt8} {records : List Record}
    (interval : IsInterval data records) (amount : Nat) :
    IsInterval data (records.drop amount) := by
  obtain ⟨range, ordered, inside, rfl⟩ := interval
  by_cases remains : range.start + amount ≤ range.stop
  · exact ⟨{ start := range.start + amount, stop := range.stop }, remains,
      inside, LineRange.drop_slice range amount _⟩
  · have gone : range.stop ≤ range.start + amount := by omega
    rw [LineRange.drop_slice, LineRange.slice_eq_nil gone]
    exact nil data

theorem edge_lt {data : List UInt8} {records : List Record}
    (interval : IsInterval data records) {edge : Edge} {position : Nat}
    (held : (edge.item? records).map (·.position) = some position) :
    position < (fileRecords data).length := by
  obtain ⟨range, ordered, inside, rfl⟩ := interval
  rw [← length_fileRecords] at inside
  have some : range.slice (fileRecords data) ≠ [] := by
    intro empty
    rw [empty] at held
    cases edge <;> cases held
  have several := LineRange.lt_of_slice_ne_nil some
  rw [LineRange.edge_slice inside several] at held
  cases held
  cases edge with
  | older =>
      simp only [LineRange.outermost]
      omega
  | newer =>
      simp only [LineRange.outermost]
      omega

/-- The records of lines next to those held at an edge make an interval with
them.  Next to nothing are any lines. -/
theorem put {data : List UInt8} {held : List Record}
    (interval : IsInterval data held) {range : LineRange} {edge : Edge}
    (ordered : range.start ≤ range.stop)
    (inside : range.stop ≤ (fileRecords data).length)
    (adjoins : ∀ position, (edge.item? held).map (·.position) = some position →
      range.Adjoins edge position) :
    IsInterval data (edge.put (range.slice (fileRecords data)) held) := by
  obtain ⟨heldRange, heldOrdered, heldInside, rfl⟩ := interval
  rw [← length_fileRecords] at heldInside
  by_cases empty : heldRange.slice (fileRecords data) = []
  · rw [empty, Edge.put_empty]
    refine ⟨range, ordered, ?_, rfl⟩
    rw [← length_fileRecords]
    exact inside
  · have some := LineRange.lt_of_slice_ne_nil empty
    have next := adjoins _ (LineRange.edge_slice heldInside some edge)
    cases edge with
    | older =>
        have meet : range.stop = heldRange.start := next
        have joined :=
          LineRange.slice_append ordered heldOrdered meet heldInside
        refine ⟨{ start := range.start, stop := heldRange.stop }, ?_, ?_,
          joined⟩
        · exact Nat.le_trans ordered (meet ▸ heldOrdered)
        · rw [← length_fileRecords]
          exact heldInside
    | newer =>
        have meet : heldRange.stop = range.start := by
          have after : range.start = heldRange.stop - 1 + 1 := next
          omega
        have joined :=
          LineRange.slice_append heldOrdered ordered meet inside
        refine ⟨{ start := heldRange.start, stop := range.stop }, ?_, ?_,
          joined⟩
        · exact Nat.le_trans heldOrdered (meet ▸ ordered)
        · rw [← length_fileRecords]
          exact inside

end IsInterval
end LogPager
