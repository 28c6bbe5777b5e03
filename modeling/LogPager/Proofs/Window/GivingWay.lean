import LogPager.Proofs.Window.Movements
import LogPager.Proofs.Window.Operations

/-!
# Records that give way

Evicting takes as many records as are asked for from an end of the held ones,
all of them if there are not so many, wherever the blocks divide them.  So a
window beyond its bound keeps as many records as the bound allows: the newest
ones if it holds the live end or grew there, and the oldest ones if it grew away
from a live end that it does not hold.
-/

namespace LogPager.Window

/-- A window whose records were taken from an edge and which is otherwise as
before. -/
structure Evicts (window : Window) (edge : Edge) (amount : Nat)
    (evicted : Nat × Window) : Prop where
  removed : evicted.1 = min amount window.records.length
  records : evicted.2.records =
    match edge with
    | .older => window.records.drop (min amount window.records.length)
    | .newer => window.records.take
        (window.records.length - min amount window.records.length)
  reached : evicted.2.reached = window.reached
  versions : evicted.2.versions = window.versions
  sound : evicted.2.Sound

theorem Sound.evicts {window : Window} (sound : window.Sound) (edge : Edge)
    (amount : Nat) : window.Evicts edge amount (window.evict edge amount) := by
  constructor
  · exact sound.evict_fst edge amount
  · rw [sound.records_evict]
    cases edge <;> rfl
  · rfl
  · rfl
  · exact sound.evict edge amount

/-- A window that was beyond its bound and gave up records at an edge, and what
this adds to a movement. -/
structure GivesWay (window : Window) (edge : Edge) (most : Nat)
    (movement : Movement) (settled : Movement × Window) : Prop where
  records : settled.2.records =
    match edge with
    | .older => window.records.drop (window.records.length - most)
    | .newer => window.records.take most
  versions : ∀ other, settled.2.versions.get other =
    window.versions.get other + if other = edge then 1 else 0
  reached : settled.2.reached = window.reached
  evicted : ∀ other, settled.1.evicted.get other =
    movement.evicted.get other +
      if other = edge then window.records.length - most else 0
  added : settled.1.added = movement.added
  sound : settled.2.Sound

theorem Loses.givesWay {window after : Window} {edge : Edge} {most : Nat}
    (loses : window.Loses edge (window.records.length - most) after)
    (beyond : most < window.records.length) (movement : Movement) :
    window.GivesWay edge most movement
      (movement.evict edge (window.records.length - most), after) := by
  constructor
  · rw [loses.records]
    cases edge with
    | older => rfl
    | newer =>
        rw [Edge.drop, Nat.sub_sub_self (Nat.le_of_lt beyond)]
  · intro other
    rw [loses.versions, Versions.get_bump]
  · exact loses.reached
  · exact fun other => Movement.evicted_evict movement edge other _
  · rfl
  · exact loses.sound

theorem yieldingEdge_eq (window : Window) (grown : Edge) :
    window.yieldingEdge grown =
      if window.reached.newer = true ∨ grown = .newer then .older
      else .newer := by
  unfold yieldingEdge
  cases window.reached.newer <;> cases grown <;> rfl

/-- Whatever operations a window has seen, evicting from an edge gives the number
of records that were taken there and leaves the others, the flags and the
versions.  So the bound changes nothing while it is kept or while the edge that
gives way awaits a reply; otherwise the records beyond the bound go from this
edge, which is the older one if the live end is held or the window grew there. -/
theorem gives_way_after_run (reached : PerEdge Bool) (versions : Versions)
    (operations : List Operation) :
    let window := run { reached, versions } operations
    (∀ edge amount, window.Evicts edge amount (window.evict edge amount)) ∧
      ∀ most grown inFlight movement,
        let edge : Edge :=
          if window.reached.newer = true ∨ grown = .newer then .older
          else .newer
        let settled := window.enforceBound (some most) grown inFlight movement
        (window.records.length ≤ most ∨ inFlight edge = true →
          settled = (movement, window)) ∧
        (most < window.records.length → inFlight edge = false →
          window.GivesWay edge most movement settled) := by
  intro window
  have sound : window.Sound := (sound_of_blank reached versions).run operations
  refine ⟨sound.evicts, ?_⟩
  intro most grown inFlight movement
  rw [← window.yieldingEdge_eq grown]
  rcases sound.enforceBound (some most) grown inFlight movement with
    ⟨unchanged, reason⟩ | ⟨_, after, given, beyond, free, step, loses⟩
  · refine ⟨fun _ => unchanged, fun beyond free => ?_⟩
    rcases reason most rfl with within | flying
    · omega
    · rw [free] at flying
      cases flying
  · cases given
    refine ⟨fun stays => ?_, fun _ _ => ?_⟩
    · rcases stays with within | flying
      · omega
      · rw [free] at flying
        cases flying
    · rw [step]
      exact loses.givesWay beyond movement

/-- Sixty-four records make a block of their own, and two more a second one. -/
private def twoBlocks : Window :=
  run { reached := .both true, versions := .both 0 }
    [.mergeLive {
      file := "app.log"
      records := (List.range 64).map fun position => { position }
      ordered := List.pairwise_map.mpr List.pairwise_lt_range },
    .mergeLive {
      file := "app.log"
      records := [{ position := 64 }, { position := 65 }]
      ordered := by simp [Record.Before] }]

/-- A bound of one takes the first block and half of the second. -/
theorem gives_way_across_blocks :
    twoBlocks.GivesWay .older 1 {}
        (twoBlocks.enforceBound (some 1) .newer (fun _ => false) {}) ∧
      (twoBlocks.enforceBound (some 1) .newer (fun _ => false) {}).2.records =
        [{ position := 65 }] := by
  have gives := ((gives_way_after_run (.both true) (.both 0) _).2 1 .newer
    (fun _ => false) {}).2 (show 1 < twoBlocks.records.length by decide) rfl
  refine ⟨gives, ?_⟩
  decide

end LogPager.Window
