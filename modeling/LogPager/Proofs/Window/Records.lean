import LogPager.Window.Basic

/-!
# The records of a window

A sound window has no empty block, counts its records, holds them in the order
of their positions and shows the blocks that it holds.  Seen through its
records, every operation works on one end of a list: joining puts a page there
and evicting takes records away from there, however the records are divided into
blocks.
-/

namespace LogPager

namespace Edge

/-- New items put at an edge of held ones. -/
def put (edge : Edge) (items held : List α) : List α :=
  match edge with
  | older => items ++ held
  | newer => held ++ items

/-- The item at an edge of a list. -/
def item? (edge : Edge) (items : List α) : Option α :=
  match edge with
  | older => items.head?
  | newer => items.getLast?

/-- The items that remain when some are dropped from an edge. -/
def drop (edge : Edge) (amount : Nat) (items : List α) : List α :=
  match edge with
  | older => items.drop amount
  | newer => items.take (items.length - amount)

@[simp] theorem put_nil (edge : Edge) (held : List α) :
    edge.put [] held = held := by
  cases edge <;> simp [put]

@[simp] theorem put_empty (edge : Edge) (items : List α) :
    edge.put items [] = items := by
  cases edge <;> simp [put]

@[simp] theorem length_put (edge : Edge) (items held : List α) :
    (edge.put items held).length = held.length + items.length := by
  cases edge
  · simp [put, Nat.add_comm]
  · simp [put]

@[simp] theorem length_drop (edge : Edge) (amount : Nat) (items : List α) :
    (edge.drop amount items).length = items.length - amount := by
  cases edge <;> simp [drop]

@[simp] theorem drop_zero (edge : Edge) (items : List α) :
    edge.drop 0 items = items := by
  cases edge <;> simp [drop]

theorem subset_put (edge : Edge) (items held : List α) :
    held ⊆ edge.put items held := by
  cases edge
  · exact List.subset_append_right items held
  · exact List.subset_append_left held items

theorem drop_sublist (edge : Edge) (amount : Nat) (items : List α) :
    (edge.drop amount items).Sublist items := by
  cases edge
  · exact List.drop_sublist amount items
  · exact List.take_sublist _ items

theorem item?_eq_none {edge : Edge} {items : List α} :
    edge.item? items = none ↔ items = [] := by
  cases edge <;> simp [item?]

theorem item?_mem {edge : Edge} {items : List α} {item : α}
    (found : edge.item? items = some item) : item ∈ items := by
  cases edge
  · exact List.mem_of_head? found
  · exact List.mem_of_getLast? found

theorem item?_opposite_put {edge : Edge} {items held : List α}
    (holds : held ≠ []) :
    edge.opposite.item? (edge.put items held) = edge.opposite.item? held := by
  cases edge with
  | older => simp [opposite, item?, put, List.getLast?_eq_some_getLast holds]
  | newer => simp [opposite, item?, put, List.head?_eq_some_head holds]

theorem item?_opposite_drop {edge : Edge} {amount : Nat} {items : List α}
    (remains : amount < items.length) :
    edge.opposite.item? (edge.drop amount items) = edge.opposite.item? items := by
  cases edge with
  | older => simp [opposite, item?, drop, List.getLast?_drop, Nat.not_le.mpr remains]
  | newer =>
      have positive : items.length - amount ≠ 0 := by omega
      simp [opposite, item?, drop, List.head?_take, positive]

end Edge

namespace Window

/-- A window whose blocks are all filled, whose length is that of its records,
whose records stand in the order of their positions and whose snapshots share
the present blocks. -/
structure Sound (window : Window) : Prop where
  filled : ∀ block ∈ window.blocks, block ≠ []
  counted : window.length = window.records.length
  ordered : window.records.Pairwise Record.Before
  shown : window.shown = window.blocks

theorem Sound.isEmpty_iff {window : Window} (sound : window.Sound) :
    window.isEmpty = true ↔ window.records = [] := by
  simp [isEmpty, sound.counted]

theorem Sound.isEmpty_eq_false_iff {window : Window} (sound : window.Sound) :
    window.isEmpty = false ↔ window.records ≠ [] := by
  simp [isEmpty, sound.counted]

theorem continuing_sound (versions : Versions) :
    (continuing versions).Sound := by
  constructor
  · intro block member
    cases member
  · rfl
  · exact List.Pairwise.nil
  · rfl

private theorem head?_flatten_of_filled {blocks : List Block}
    (filled : ∀ block ∈ blocks, block ≠ []) :
    blocks.flatten.head? = blocks.head?.bind List.head? := by
  cases blocks with
  | nil => rfl
  | cons block rest =>
      have first : block ≠ [] := filled block List.mem_cons_self
      simp [List.head?_eq_some_head first]

private theorem getLast?_flatten_of_filled {blocks : List Block}
    (filled : ∀ block ∈ blocks, block ≠ []) :
    blocks.flatten.getLast? = blocks.getLast?.bind List.getLast? := by
  rcases List.eq_nil_or_concat blocks with rfl | ⟨rest, block, rfl⟩
  · rfl
  · have last : block ≠ [] := filled block (by simp)
    simp [List.getLast?_eq_some_getLast last]

theorem Sound.edge?_eq {window : Window} (sound : window.Sound) (edge : Edge) :
    window.edge? edge = (edge.item? window.records).map (·.position) := by
  cases edge with
  | older =>
      simp [edge?, Edge.item?, records, head?_flatten_of_filled sound.filled]
  | newer =>
      simp [edge?, Edge.item?, records, getLast?_flatten_of_filled sound.filled]

theorem Sound.edge?_eq_none_iff {window : Window} (sound : window.Sound)
    {edge : Edge} : window.edge? edge = none ↔ window.records = [] := by
  rw [sound.edge?_eq, Option.map_eq_none_iff, Edge.item?_eq_none]

theorem Sound.isEmpty_eq_false_iff_edge? {window : Window}
    (sound : window.Sound) (edge : Edge) :
    window.isEmpty = false ↔ ∃ held, window.edge? edge = some held := by
  have none : window.edge? edge = none ↔ window.records = [] :=
    sound.edge?_eq_none_iff
  rw [sound.isEmpty_eq_false_iff, Ne, ← none, ← Ne, Option.ne_none_iff_exists']

private theorem flatten_joinFront (records : Block) (blocks : List Block) :
    (joinFront records blocks).flatten = records ++ blocks.flatten := by
  fun_cases joinFront records blocks <;> simp

private theorem flatten_joinBack (records : Block) (blocks : List Block) :
    (joinBack records blocks).flatten = blocks.flatten ++ records := by
  rcases List.eq_nil_or_concat blocks with rfl | ⟨rest, block, rfl⟩
  · simp [joinBack]
  · by_cases fits : block.length + records.length ≤ blockBound
    · simp [joinBack, fits]
    · simp [joinBack, fits]

private theorem joinFront_filled {records : Block} {blocks : List Block}
    (some : records ≠ []) (filled : ∀ block ∈ blocks, block ≠ []) :
    ∀ block ∈ joinFront records blocks, block ≠ [] := by
  intro block member
  cases blocks with
  | nil =>
      simp only [joinFront, List.mem_singleton] at member
      exact member ▸ some
  | cons head rest =>
      by_cases fits : head.length + records.length ≤ blockBound
      · simp only [joinFront, fits, if_true, List.mem_cons] at member
        rcases member with rfl | later
        · simp [some]
        · exact filled block (List.mem_cons_of_mem _ later)
      · simp only [joinFront, fits, if_false, List.mem_cons] at member
        rcases member with rfl | later
        · exact some
        · exact filled block (List.mem_cons.mpr later)

private theorem joinBack_filled {records : Block} {blocks : List Block}
    (some : records ≠ []) (filled : ∀ block ∈ blocks, block ≠ []) :
    ∀ block ∈ joinBack records blocks, block ≠ [] := by
  intro block member
  rcases List.eq_nil_or_concat blocks with rfl | ⟨rest, last, rfl⟩
  · simp only [joinBack, List.getLast?_nil, List.mem_singleton] at member
    exact member ▸ some
  · by_cases fits : last.length + records.length ≤ blockBound
    · simp [joinBack, fits] at member
      rcases member with earlier | rfl
      · exact filled block (by simp [earlier])
      · simp [some]
    · simp [joinBack, fits] at member
      rcases member with earlier | rfl | rfl
      · exact filled block (by simp [earlier])
      · exact filled block (by simp)
      · exact some

@[simp] theorem records_joinAt (window : Window) (edge : Edge)
    (records : Block) :
    (window.joinAt edge records).records = edge.put records window.records := by
  cases edge with
  | older => exact flatten_joinFront records window.blocks
  | newer => exact flatten_joinBack records window.blocks

theorem Sound.joinAt {window : Window} (sound : window.Sound) {edge : Edge}
    {records : Block} (some : records ≠ [])
    (ordered : (edge.put records window.records).Pairwise Record.Before) :
    (window.joinAt edge records).Sound := by
  constructor
  · cases edge with
    | older => exact joinFront_filled some sound.filled
    | newer => exact joinBack_filled some sound.filled
  · rw [records_joinAt, Edge.length_put, ← sound.counted]
    rfl
  · rw [records_joinAt]
    exact ordered
  · rfl

private theorem flatten_dropFront (amount : Nat) (blocks : List Block) :
    (dropFront amount blocks).flatten = blocks.flatten.drop amount := by
  fun_induction dropFront amount blocks with
  | case1 blocks => simp
  | case2 amount positive => simp
  | case3 amount block rest fits ih =>
      rw [ih, List.flatten_cons, List.drop_append,
        List.drop_eq_nil_of_le fits, List.nil_append]
  | case4 amount block rest larger =>
      have inside : amount + 1 - block.length = 0 := by omega
      simp [List.drop_append, inside]

private theorem dropFront_filled {amount : Nat} {blocks : List Block}
    (filled : ∀ block ∈ blocks, block ≠ []) :
    ∀ block ∈ dropFront amount blocks, block ≠ [] := by
  fun_induction dropFront amount blocks with
  | case1 blocks => exact filled
  | case2 amount positive => exact filled
  | case3 amount block rest fits ih =>
      exact ih fun other member => filled other (List.mem_cons_of_mem _ member)
  | case4 amount block rest larger =>
      intro other member
      rcases List.mem_cons.mp member with rfl | later
      · simpa using larger
      · exact filled other (List.mem_cons_of_mem _ later)

private theorem dropNewest_eq_map_reverse (amount : Nat) (blocks : List Block) :
    dropNewest amount blocks =
      (dropFront amount (blocks.map List.reverse)).map List.reverse := by
  have mirrored (blocks : List Block) :
      (blocks.map List.reverse).map List.reverse = blocks := by
    rw [List.map_map]
    exact (List.map_congr_left fun block _ => block.reverse_reverse).trans
      blocks.map_id'
  fun_induction dropNewest amount blocks with
  | case1 blocks => rw [dropFront, mirrored]
  | case2 amount positive => simp [dropFront]
  | case3 amount block rest fits ih => simp [dropFront, fits, ih]
  | case4 amount block rest larger =>
      rw [List.map_cons, dropFront, List.length_reverse, if_neg larger,
        List.map_cons, mirrored, List.reverse_drop, List.reverse_reverse,
        List.length_reverse]

private theorem flatten_dropNewest (amount : Nat) (blocks : List Block) :
    (dropNewest amount blocks.reverse).reverse.flatten =
      blocks.flatten.take (blocks.flatten.length - amount) := by
  calc
    (dropNewest amount blocks.reverse).reverse.flatten =
        ((dropFront amount (blocks.reverse.map List.reverse)).flatten).reverse := by
      rw [dropNewest_eq_map_reverse, List.reverse_flatten, List.map_reverse]
    _ = (blocks.flatten.reverse.drop amount).reverse := by
      rw [flatten_dropFront, List.reverse_flatten, List.map_reverse]
    _ = blocks.flatten.take (blocks.flatten.length - amount) := by
      rw [List.drop_reverse, List.reverse_reverse]

private theorem dropAt_zero (edge : Edge) (blocks : List Block) :
    dropAt edge 0 blocks = blocks := by
  cases edge <;> simp [dropAt, dropFront, dropNewest]

private theorem dropAt_filled {edge : Edge} {amount : Nat} {blocks : List Block}
    (filled : ∀ block ∈ blocks, block ≠ []) :
    ∀ block ∈ dropAt edge amount blocks, block ≠ [] := by
  cases edge with
  | older => exact dropFront_filled filled
  | newer =>
      have mirrorsFilled :
          ∀ block ∈ blocks.reverse.map List.reverse, block ≠ [] := by
        intro block member empty
        obtain ⟨mirrored, kept, rfl⟩ := List.mem_map.mp member
        apply filled mirrored (List.mem_reverse.mp kept)
        exact List.reverse_eq_nil_iff.mp empty
      intro block member empty
      simp only [dropAt, List.mem_reverse, dropNewest_eq_map_reverse,
        List.mem_map] at member
      obtain ⟨mirrored, kept, rfl⟩ := member
      apply dropFront_filled mirrorsFilled mirrored kept
      exact List.reverse_eq_nil_iff.mp empty

theorem Sound.evict_fst {window : Window} (sound : window.Sound) (edge : Edge)
    (amount : Nat) :
    (window.evict edge amount).1 = min amount window.records.length := by
  rw [← sound.counted]
  rfl

theorem Sound.records_evict {window : Window} (sound : window.Sound)
    (edge : Edge) (amount : Nat) :
    (window.evict edge amount).2.records =
      edge.drop (min amount window.records.length) window.records := by
  rw [← sound.counted]
  cases edge with
  | older => exact flatten_dropFront _ window.blocks
  | newer => exact flatten_dropNewest _ window.blocks

theorem Sound.evict {window : Window} (sound : window.Sound) (edge : Edge)
    (amount : Nat) : (window.evict edge amount).2.Sound := by
  constructor
  · exact dropAt_filled sound.filled
  · rw [sound.records_evict, Edge.length_drop, ← sound.counted]
    rfl
  · rw [sound.records_evict]
    exact sound.ordered.sublist (Edge.drop_sublist _ _ _)
  · show (if 0 < min amount window.length then
        dropAt edge (min amount window.length) window.blocks
      else window.shown) = dropAt edge (min amount window.length) window.blocks
    split
    · rfl
    · rename_i nothing
      rw [Nat.eq_zero_of_not_pos nothing, dropAt_zero, sound.shown]

end Window
end LogPager
