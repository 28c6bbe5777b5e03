import LogPager.Proofs.Window.Merging

/-!
# What a movement tells of a window

A merge reports a movement, and keeping the bound adds to it what was evicted.
The movement accounts for the records before and after: some of the received
ones were put at both edges and as many evicted as it says.  The version of an
edge grows once for records put there and once for records evicted there; a
page that fills an empty window by a fetch counts for both edges.
-/

namespace LogPager

theorem Versions.get_bump (versions : Versions) (edge other : Edge) :
    (versions.bump edge).get other =
      versions.get other + if other = edge then 1 else 0 := by
  cases edge <;> cases other <;> rfl

theorem Versions.get_bumpBoth (versions : Versions) (edge : Edge) :
    versions.bumpBoth.get edge = versions.get edge + 1 := by
  cases edge <;> rfl

namespace Movement

theorem added_add (edge other : Edge) (count : Nat) :
    (add {} edge count).added.get other = if other = edge then count else 0 := by
  cases edge <;> cases other <;> simp [add, PerEdge.modify, PerEdge.set,
    PerEdge.get, PerEdge.both]

theorem evicted_add (edge other : Edge) (count : Nat) :
    (add {} edge count).evicted.get other = 0 := by
  cases other <;> rfl

theorem evicted_evict (movement : Movement) (edge other : Edge)
    (count : Nat) :
    (movement.evict edge count).evicted.get other =
      movement.evicted.get other + if other = edge then count else 0 := by
  cases edge <;> cases other <;> rfl

/-- The records before with new ones at both edges, of which then some were
evicted from both, are the records after. -/
structure Accounts (movement : Movement)
    (front before back after : List Record) : Prop where
  prepended : front.length = movement.added.older
  appended : back.length = movement.added.newer
  enough : movement.evicted.older + movement.evicted.newer ≤
    (front ++ before ++ back).length
  remains : after = Edge.newer.drop movement.evicted.newer
    (Edge.older.drop movement.evicted.older (front ++ before ++ back))

/-- Records were added to a window that held none. -/
def fills (movement : Movement) (before : List Record) : Bool :=
  before.isEmpty && 0 < movement.added.older + movement.added.newer

/-- By how much the version of an edge grows. -/
def bumps (movement : Movement) (filled : Bool) (edge : Edge) : Nat :=
  (if filled || 0 < movement.added.get edge then 1 else 0) +
    if 0 < movement.evicted.get edge then 1 else 0

namespace Accounts

theorem unmoved (records : List Record) :
    Accounts {} [] records [] records := by
  constructor
  · rfl
  · rfl
  · exact Nat.zero_le _
  · simp [PerEdge.both]

theorem put (edge : Edge) (items held : List Record) :
    ∃ front back, (add {} edge items.length).Accounts front held back
      (edge.put items held) ∧ front ++ back = items := by
  cases edge with
  | older =>
      refine ⟨items, [], ?_, List.append_nil items⟩
      constructor
      · simp [add, PerEdge.modify, PerEdge.set, PerEdge.get, PerEdge.both]
      · rfl
      · exact Nat.zero_le _
      · simp [add, Edge.put, PerEdge.both]
  | newer =>
      refine ⟨[], items, ?_, List.nil_append items⟩
      constructor
      · rfl
      · simp [add, PerEdge.modify, PerEdge.set, PerEdge.get, PerEdge.both]
      · exact Nat.zero_le _
      · simp [add, Edge.put, PerEdge.both]

theorem evict {movement : Movement} {front before back held : List Record}
    (accounts : movement.Accounts front before back held)
    (kept : ∀ edge, movement.evicted.get edge = 0) (edge : Edge) {amount : Nat}
    (enough : amount ≤ held.length) :
    (movement.evict edge amount).Accounts front before back
      (edge.drop amount held) := by
  have older : movement.evicted.older = 0 := kept .older
  have newer : movement.evicted.newer = 0 := kept .newer
  have whole : held = front ++ before ++ back := by
    rw [accounts.remains, older, newer, Edge.drop_zero, Edge.drop_zero]
  subst whole
  refine ⟨accounts.prepended, accounts.appended, ?_, ?_⟩
  · cases edge <;> simpa [Movement.evict, PerEdge.modify, PerEdge.set,
      PerEdge.get, older, newer] using enough
  · cases edge <;> simp [Movement.evict, PerEdge.modify, PerEdge.set,
      PerEdge.get, older, newer]

theorem length_eq {movement : Movement} {front before back after : List Record}
    (accounts : movement.Accounts front before back after) :
    after.length + movement.evicted.older + movement.evicted.newer =
      before.length + movement.added.older + movement.added.newer := by
  have enough := accounts.enough
  have prepended := accounts.prepended
  have appended := accounts.appended
  rw [accounts.remains, Edge.length_drop, Edge.length_drop]
  simp only [List.length_append] at enough ⊢
  omega

/-- Nothing was moved at an edge where nothing was added or evicted, as long
as there are records before and after. -/
theorem item?_eq {movement : Movement} {front before back after : List Record}
    (accounts : movement.Accounts front before back after) {edge : Edge}
    (added : movement.added.get edge = 0)
    (evicted : movement.evicted.get edge = 0)
    (some : before ≠ []) (remains : after ≠ []) :
    edge.item? after = edge.item? before := by
  have positive : 0 < after.length := List.length_pos_iff.mpr remains
  have length := accounts.length_eq
  cases edge with
  | older =>
      have none : movement.added.older = 0 := added
      have kept : movement.evicted.older = 0 := evicted
      have front : front = [] := by
        rw [← List.length_eq_zero_iff, accounts.prepended, none]
      have whole : after =
          Edge.newer.drop movement.evicted.newer (Edge.newer.put back before) := by
        rw [accounts.remains, kept, front]
        rfl
      have fewer : movement.evicted.newer <
          (Edge.newer.put back before).length := by
        rw [Edge.length_put, accounts.appended]
        omega
      rw [whole]
      exact (Edge.item?_opposite_drop fewer).trans (Edge.item?_opposite_put some)
  | newer =>
      have none : movement.added.newer = 0 := added
      have kept : movement.evicted.newer = 0 := evicted
      have back : back = [] := by
        rw [← List.length_eq_zero_iff, accounts.appended, none]
      have whole : after =
          Edge.older.drop movement.evicted.older (Edge.older.put front before) := by
        rw [accounts.remains, kept, back, Edge.drop_zero, List.append_nil]
        rfl
      have fewer : movement.evicted.older <
          (Edge.older.put front before).length := by
        rw [Edge.length_put, accounts.prepended]
        omega
      rw [whole]
      exact (Edge.item?_opposite_drop fewer).trans (Edge.item?_opposite_put some)

end Accounts

theorem fills_add (edge : Edge) (count : Nat) (before : List Record) :
    (add {} edge count).fills before = (before.isEmpty && 0 < count) := by
  cases edge <;> simp [fills, add, PerEdge.modify, PerEdge.set, PerEdge.get,
    PerEdge.both]

theorem fills_evict (movement : Movement) (edge : Edge) (count : Nat)
    (before : List Record) :
    (movement.evict edge count).fills before = movement.fills before :=
  rfl

theorem bumps_add (edge other : Edge) (count : Nat) (filled : Bool) :
    (add {} edge count).bumps filled other =
      if filled || (other = edge && 0 < count) then 1 else 0 := by
  rw [bumps, added_add, evicted_add]
  by_cases here : other = edge <;> simp [here]

theorem bumps_evict {movement : Movement} {edge : Edge} {count : Nat}
    (kept : ∀ edge, movement.evicted.get edge = 0) (some : 0 < count)
    (other : Edge) (filled : Bool) :
    (movement.evict edge count).bumps filled other =
      movement.bumps filled other + if other = edge then 1 else 0 := by
  have added : (movement.evict edge count).added = movement.added := rfl
  rw [bumps, bumps, evicted_evict, kept, added]
  by_cases here : other = edge
  · simp [here, some]
  · simp [here]

theorem bumps_eq_zero {movement : Movement} {filled : Bool} {edge : Edge}
    (still : movement.bumps filled edge = 0) :
    filled = false ∧ movement.added.get edge = 0 ∧
      movement.evicted.get edge = 0 := by
  unfold bumps at still
  cases filled with
  | true => simp at still
  | false =>
      refine ⟨rfl, ?_, ?_⟩
      · by_contra some
        simp [Nat.pos_of_ne_zero some] at still
      · by_contra some
        simp [Nat.pos_of_ne_zero some] at still

/-- A movement that bumps no version left the records as they were. -/
theorem Accounts.eq_of_bumps {movement : Movement} {filled : Bool}
    {front before back after : List Record}
    (accounts : movement.Accounts front before back after)
    (still : ∀ edge, movement.bumps filled edge = 0) : after = before := by
  obtain ⟨_, prepended, evictedOlder⟩ := bumps_eq_zero (still .older)
  obtain ⟨_, appended, evictedNewer⟩ := bumps_eq_zero (still .newer)
  have front : front = [] := by
    rw [← List.length_eq_zero_iff, accounts.prepended]
    exact prepended
  have back : back = [] := by
    rw [← List.length_eq_zero_iff, accounts.appended]
    exact appended
  have older : movement.evicted.older = 0 := evictedOlder
  have newer : movement.evicted.newer = 0 := evictedNewer
  rw [accounts.remains, front, back, older, newer]
  simp

end Movement

theorem Page.beyond_infix (page : Page) (edge : Edge) (held : Option Nat) :
    page.beyond edge held <:+: page.records := by
  cases held with
  | none => exact List.infix_refl _
  | some held =>
      cases edge with
      | older => exact (List.takeWhile_prefix _).isInfix
      | newer => exact (List.dropWhile_suffix _).isInfix

namespace Window

/-- What a merge and the keeping of the bound after it make of a window. -/
structure Changes (window : Window) (bound : Option Nat) (fetched : Bool)
    (received : List Record) (movement : Movement) (after : Window) : Prop where
  sound : after.Sound
  records : ∃ front back,
    movement.Accounts front window.records back after.records ∧
      front ++ back <:+: received
  versions : ∀ edge, after.versions.get edge = window.versions.get edge +
    movement.bumps (fetched && movement.fills window.records) edge
  /-- Only a fetch puts records before the held ones. -/
  pushed : fetched = false → movement.added.older = 0
  /-- Eviction stops at the bound. -/
  evicts : ∀ edge, movement.evicted.get edge ≠ 0 →
    bound = some after.records.length

theorem TakesFetched.changes {window after : Window} {page : Page}
    {fetched : Fetched} {movement : Movement}
    (takes : window.TakesFetched page fetched movement after)
    (bound : Option Nat) :
    window.Changes bound true page.records movement after := by
  have moved := takes.movement
  generalize given : page.beyond fetched.edge (window.edge? fetched.edge) =
    items at moved
  subst moved
  refine ⟨takes.sound, ?_, ?_, nofun, ?_⟩
  · obtain ⟨front, back, accounts, parts⟩ :=
      Movement.Accounts.put fetched.edge items window.records
    refine ⟨front, back, ?_, ?_⟩
    · rw [takes.records, given]
      exact accounts
    · rw [parts, ← given]
      exact page.beyond_infix _ _
  · intro edge
    rw [takes.versions, given, Movement.bumps_add, Movement.fills_add]
    by_cases nothing : items = []
    · simp [nothing]
    · have some : 0 < items.length := List.length_pos_iff.mpr nothing
      by_cases empty : window.records = []
      · simp [nothing, empty, some, Versions.get_bumpBoth]
      · simp [nothing, empty, some, Versions.get_bump]
  · intro edge evicted
    rw [Movement.evicted_add] at evicted
    exact (evicted rfl).elim

theorem TakesPushed.changes {window after : Window} {page : Page}
    {movement : Movement} (takes : window.TakesPushed page movement after)
    (bound : Option Nat) :
    window.Changes bound false page.records movement after := by
  have moved := takes.movement
  generalize given : page.beyond .newer (window.edge? .newer) = items at moved
  subst moved
  refine ⟨takes.sound, ?_, ?_, fun _ => rfl, ?_⟩
  · obtain ⟨front, back, accounts, parts⟩ :=
      Movement.Accounts.put .newer items window.records
    refine ⟨front, back, ?_, ?_⟩
    · rw [takes.records, given]
      exact accounts
    · rw [parts, ← given]
      exact page.beyond_infix _ _
  · intro edge
    rw [takes.versions, given, Movement.bumps_add]
    by_cases nothing : items = []
    · simp [nothing]
    · have some : 0 < items.length := List.length_pos_iff.mpr nothing
      simp [nothing, some, Versions.get_bump]
  · intro edge evicted
    rw [Movement.evicted_add] at evicted
    exact (evicted rfl).elim

theorem Changes.enforceBound {window grown : Window} {bound : Option Nat}
    {fetched : Bool} {received : List Record} {movement : Movement}
    (changes : window.Changes bound fetched received movement grown)
    (kept : ∀ edge, movement.evicted.get edge = 0) (toward : Edge)
    (inFlight : Edge → Bool) :
    window.Changes bound fetched received
      (grown.enforceBound bound toward inFlight movement).1
      (grown.enforceBound bound toward inFlight movement).2 := by
  rcases changes.sound.enforceBound bound toward inFlight movement with
    ⟨unchanged, _⟩ | ⟨most, after, given, more, _, step, loses⟩
  · rw [unchanged]
    exact changes
  · rw [step]
    generalize grown.yieldingEdge toward = yielding at loses
    generalize amount : grown.records.length - most = excess at loses
    have positive : 0 < excess := by omega
    obtain ⟨front, back, accounts, parts⟩ := changes.records
    refine ⟨loses.sound, ⟨front, back, ?_, parts⟩, ?_, changes.pushed, ?_⟩
    · rw [loses.records]
      exact accounts.evict kept yielding (by omega)
    · intro edge
      rw [loses.versions, Versions.get_bump, changes.versions,
        Movement.fills_evict, Movement.bumps_evict kept positive,
        Nat.add_assoc]
    · intro _ _
      rw [given, loses.records, Edge.length_drop]
      congr 1
      omega

/-- An edge whose version stays keeps its record, unless a push filled the
window. -/
theorem Changes.item?_eq {window after : Window} {bound : Option Nat}
    {fetched : Bool} {received : List Record} {movement : Movement}
    (changes : window.Changes bound fetched received movement after)
    (bounded : bound ≠ some 0) {edge : Edge}
    (still : movement.bumps (fetched && movement.fills window.records) edge = 0)
    (held : window.records ≠ [] ∨ fetched = true ∨ edge = .newer) :
    edge.item? after.records = edge.item? window.records := by
  obtain ⟨unfilled, added, evicted⟩ := Movement.bumps_eq_zero still
  obtain ⟨front, back, accounts, _⟩ := changes.records
  by_cases some : window.records = []
  · -- Nothing was added to the empty window, so it is still empty.
    have nothing : movement.added.older + movement.added.newer = 0 := by
      rcases held with held | held | held
      · exact (held some).elim
      · simpa [held, some, Movement.fills] using unfilled
      · cases fetched with
        | true => simpa [some, Movement.fills] using unfilled
        | false =>
            rw [held] at added
            have older := changes.pushed rfl
            have newer : movement.added.newer = 0 := added
            omega
    have length := accounts.length_eq
    rw [some, List.length_nil] at length
    have none : after.records = [] := List.length_eq_zero_iff.mp (by omega)
    rw [none, some]
  · apply accounts.item?_eq added evicted some
    intro none
    have length := accounts.length_eq
    have before : 0 < window.records.length := List.length_pos_iff.mpr some
    rw [none, List.length_nil] at length
    have lost : ∃ other, movement.evicted.get other ≠ 0 := by
      by_contra all
      have older : movement.evicted.older = 0 :=
        not_not.mp fun more => all ⟨.older, more⟩
      have newer : movement.evicted.newer = 0 :=
        not_not.mp fun more => all ⟨.newer, more⟩
      omega
    obtain ⟨other, lost⟩ := lost
    have atBound := changes.evicts other lost
    rw [none] at atBound
    exact bounded atBound

end Window
end LogPager
