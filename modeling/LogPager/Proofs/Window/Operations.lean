import LogPager.Proofs.Window.Editing
import LogPager.Proofs.Window.Merging
import LogPager.Window.Snapshot

/-!
# Windows after any operations

Whatever is joined to an empty window, merged into it or evicted from it, and
whatever of this fails, the window stays sound: the positions of its records
grow, no block is empty, its length is the number of its records and its
snapshots share the blocks that it holds.
-/

namespace LogPager

/-- An addition that stops at the last position of 64 bits finds the same gaps
as one that does not stop. -/
theorem Edge.leavesGap_eq_saturating (edge : Edge) {held received : Nat}
    (heldFits : held < UInt64.size) (receivedFits : received < UInt64.size) :
    edge.leavesGap held received =
      match edge with
      | older => decide (min (received + 1) (UInt64.size - 1) < held)
      | newer => decide (min (held + 1) (UInt64.size - 1) < received) := by
  unfold UInt64.size at *
  cases edge with
  | older =>
      simp only [leavesGap, decide_eq_decide]
      omega
  | newer =>
      simp only [leavesGap, decide_eq_decide]
      omega

/-- Nothing abuts beyond the last position of 64 bits, so an addition that
fails there decides the same. -/
theorem Edge.abuts_eq_checked (edge : Edge) {held received : Nat}
    (heldFits : held < UInt64.size) (receivedFits : received < UInt64.size) :
    edge.abuts held received =
      match edge with
      | older => decide (received + 1 < UInt64.size ∧ received + 1 = held)
      | newer => decide (held + 1 < UInt64.size ∧ held + 1 = received) := by
  unfold UInt64.size at *
  cases edge with
  | older =>
      rw [abuts, Bool.eq_iff_iff, beq_iff_eq, decide_eq_true_eq]
      omega
  | newer =>
      rw [abuts, Bool.eq_iff_iff, beq_iff_eq, decide_eq_true_eq]
      omega

namespace Window

/-- What the owner of a window does with it. -/
inductive Operation where
  | append (page : Page) (edge : Edge)
  | evict (edge : Edge) (amount : Nat)
  | mergeFetched (page : Page) (fetched : Fetched)
  | mergeLive (page : Page)
  | enforceBound (bound : Option Nat) (grown : Edge) (inFlight : Edge → Bool)
      (movement : Movement)

/-- The window that an operation leaves, also when it fails. -/
def perform (window : Window) : Operation → Window
  | .append page edge => ((Edit.append page edge).apply window).2
  | .evict edge amount => (window.evict edge amount).2
  | .mergeFetched page fetched =>
      ((Edit.mergeFetched page fetched).apply window).2
  | .mergeLive page => ((Edit.mergeLive page).apply window).2
  | .enforceBound bound grown inFlight movement =>
      (window.enforceBound bound grown inFlight movement).2

/-- The window that some operations leave. -/
def run (window : Window) : List Operation → Window
  | [] => window
  | operation :: rest => (window.perform operation).run rest

private theorem Sound.apply {window : Window} (sound : window.Sound)
    {edit : Edit α} {result : Except SpliceError (α × Window)}
    (settles : edit.apply window = Edit.settled window result)
    (succeeds : ∀ value after, result = .ok (value, after) → after.Sound) :
    (edit.apply window).2.Sound := by
  rw [settles]
  rcases result with error | ⟨value, after⟩
  · exact sound
  · exact succeeds value after rfl

theorem Sound.perform {window : Window} (sound : window.Sound)
    (operation : Operation) : (window.perform operation).Sound := by
  cases operation with
  | append page edge =>
      apply sound.apply (Edit.apply_append page edge window)
      intro _ after succeeded
      cases appended : window.append page edge with
      | error error =>
          rw [appended] at succeeded
          cases succeeded
      | ok grown =>
          rw [appended] at succeeded
          cases succeeded
          exact (sound.append appended).sound
  | evict edge amount => exact sound.evict edge amount
  | mergeFetched page fetched =>
      apply sound.apply (Edit.apply_mergeFetched page fetched window)
      intro movement after merged
      exact (sound.mergeFetched merged).sound
  | mergeLive page =>
      apply sound.apply (Edit.apply_mergeLive page window)
      intro movement after merged
      cases live : window.reached.newer with
      | true => exact (sound.mergeLive live merged).sound
      | false =>
          -- Away from the live end a push is ignored.
          simp only [Window.mergeLive, live, Bool.not_false, Bool.true_or,
            if_true] at merged
          cases merged
          exact sound
  | enforceBound bound grown inFlight movement =>
      rcases sound.enforceBound bound grown inFlight movement with
        ⟨unchanged, _⟩ | ⟨_, after, _, _, _, step, loses⟩
      · rw [Window.perform, unchanged]
        exact sound
      · rw [Window.perform, step]
        exact loses.sound

theorem Sound.run {window : Window} (sound : window.Sound)
    (operations : List Operation) : (window.run operations).Sound := by
  induction operations generalizing window with
  | nil => exact sound
  | cons operation rest ih => exact ih (sound.perform operation)

theorem sound_of_blank (reached : PerEdge Bool) (versions : Versions) :
    Sound { reached, versions } := by
  constructor
  · intro block member
    cases member
  · rfl
  · exact List.Pairwise.nil
  · rfl

/-- After any operations on an empty window, some of which may have failed, the
held positions grow strictly over all blocks, no block is empty, the length is
the number of held records, and a snapshot lists exactly the held blocks. -/
theorem wellFormed_after_run (reached : PerEdge Bool) (versions : Versions)
    (operations : List Operation) :
    let window := Window.run { reached, versions } operations
    (window.records.map (·.position)).Pairwise (· < ·) ∧
      (∀ block ∈ window.blocks, block ≠ []) ∧
      window.length = window.records.length ∧
      window.snapshot.blocks = window.blocks := by
  intro window
  have sound : window.Sound := (sound_of_blank reached versions).run operations
  refine ⟨?_, sound.filled, sound.counted, sound.shown⟩
  exact List.pairwise_map.mpr sound.ordered

end Window
end LogPager
