import LogPager.Proofs.Window.Merging
import Mathlib.Data.List.Chain

/-!
# Blocks are not small side by side

Records join the block at their edge unless the two together are too many for
one block, so neighbouring blocks hold more records together than one block of
joined records may.  Evicting shortens the block at an edge and leaves the
others alone.  So there are at most twice as many blocks as the records would
fill, and two more.
-/

namespace LogPager.Window

/-- The records of two blocks are too many to be joined. -/
def Separate (left right : Block) : Prop :=
  blockBound < left.length + right.length

/-- No two neighbouring blocks could be one. -/
def Coalesced (blocks : List Block) : Prop :=
  blocks.IsChain Separate

theorem Coalesced.mul_pairs_le {blocks : List Block} :
    Coalesced blocks →
      (blockBound + 1) * (blocks.length / 2) ≤ blocks.flatten.length := by
  -- Two blocks at a time, each of them with its neighbour.
  induction blocks using List.twoStepInduction with
  | nil | singleton => simp
  | cons_cons first second rest ih _ =>
      intro coalesced
      have apart : blockBound < first.length + second.length := coalesced.rel
      have later := ih coalesced.tail.tail
      have pairs : (first :: second :: rest).length / 2 =
          rest.length / 2 + 1 := by
        simp only [List.length_cons]
        omega
      have total : (first :: second :: rest).flatten.length =
          first.length + second.length + rest.flatten.length := by
        simp only [List.flatten_cons, List.length_append]
        omega
      rw [pairs, total, Nat.mul_add, Nat.mul_one]
      omega

theorem Coalesced.length_le {blocks : List Block}
    (coalesced : Coalesced blocks.tail) :
    blocks.length ≤
      2 * (blocks.flatten.length / (blockBound + 1)) + 2 := by
  cases blocks with
  | nil => exact Nat.zero_le _
  | cons oldest rest =>
      have pairs : rest.length / 2 ≤
          rest.flatten.length / (blockBound + 1) := by
        rw [Nat.le_div_iff_mul_le (Nat.succ_pos _), Nat.mul_comm]
        exact coalesced.mul_pairs_le
      have fewer : rest.flatten.length / (blockBound + 1) ≤
          (oldest :: rest).flatten.length / (blockBound + 1) := by
        apply Nat.div_le_div_right
        rw [List.flatten_cons, List.length_append]
        exact Nat.le_add_left _ _
      rw [List.length_cons]
      omega

theorem Separate.append_left {left right : Block}
    (separate : Separate left right) (records : Block) :
    Separate (records ++ left) right := by
  unfold Separate at *
  rw [List.length_append]
  omega

theorem Separate.append_right {left right : Block}
    (separate : Separate left right) (records : Block) :
    Separate left (right ++ records) := by
  unfold Separate at *
  rw [List.length_append]
  omega

theorem Coalesced.joinFront {blocks : List Block} (coalesced : Coalesced blocks)
    (records : Block) : Coalesced (joinFront records blocks) := by
  fun_cases Window.joinFront records blocks with
  | case1 => exact List.isChain_singleton _
  | case2 block rest fits =>
      cases rest with
      | nil => exact List.isChain_singleton _
      | cons next later =>
          exact .cons_cons (coalesced.rel.append_left records) coalesced.tail
  | case3 block rest large =>
      refine .cons_cons ?_ coalesced
      have beyond := Nat.lt_of_not_le large
      rwa [Nat.add_comm] at beyond

private theorem joinBack_concat (records : Block) (earlier : List Block)
    (newest : Block) :
    joinBack records (earlier ++ [newest]) =
      if newest.length + records.length ≤ blockBound then
        earlier ++ [newest ++ records]
      else earlier ++ [newest] ++ [records] := by
  simp [joinBack]

theorem Coalesced.joinBack {blocks : List Block} (coalesced : Coalesced blocks)
    (records : Block) : Coalesced (joinBack records blocks) := by
  rcases List.eq_nil_or_concat' blocks with rfl | ⟨earlier, newest, rfl⟩
  · exact List.isChain_singleton _
  · rw [joinBack_concat]
    split
    · obtain ⟨before, _, seam⟩ := List.isChain_append.mp coalesced
      refine List.isChain_append.mpr ⟨before, List.isChain_singleton _, ?_⟩
      intro last atEnd joined atFront
      cases atFront
      exact (seam last atEnd newest rfl).append_right records
    · rename_i large
      refine List.isChain_append.mpr
        ⟨coalesced, List.isChain_singleton _, ?_⟩
      intro last atEnd joined atFront
      cases atFront
      rw [List.getLast?_concat] at atEnd
      cases atEnd
      exact Nat.lt_of_not_le large

theorem joinBack_cons (records oldest : Block) {blocks : List Block}
    (several : blocks ≠ []) :
    joinBack records (oldest :: blocks) = oldest :: joinBack records blocks := by
  obtain ⟨earlier, newest, rfl⟩ :=
    (List.eq_nil_or_concat' blocks).resolve_left several
  rw [← List.cons_append, joinBack_concat, joinBack_concat]
  split <;> rfl

theorem Coalesced.tail_joinBack {blocks : List Block}
    (coalesced : Coalesced blocks.tail) (records : Block) :
    Coalesced (Window.joinBack records blocks).tail := by
  rcases blocks with _ | ⟨oldest, _ | ⟨next, later⟩⟩
  · exact .nil
  · -- There is one block, or the new one is the second.
    rw [← List.nil_append [oldest], joinBack_concat]
    split
    · exact .nil
    · exact List.isChain_singleton _
  · rw [joinBack_cons records oldest (List.cons_ne_nil next later)]
    exact Coalesced.joinBack coalesced records

/-- What is dropped from the front is taken from one block at a time. -/
theorem Coalesced.tail_dropFront {blocks : List Block}
    (coalesced : Coalesced blocks.tail) (amount : Nat) :
    Coalesced (dropFront amount blocks).tail := by
  fun_induction dropFront amount blocks with
  | case1 | case2 => exact coalesced
  | case3 amount block rest fits ih => exact ih coalesced.tail
  | case4 amount block rest larger => exact coalesced

/-- The blocks of a window are as before, or records were joined to them at an
edge. -/
inductive JoinsAt (window : Window) (edge : Edge) (after : Window) : Prop where
  | nothing (blocks : after.blocks = window.blocks)
  | records (records : Block)
      (blocks : after.blocks = joinBlocks edge records window.blocks)

theorem JoinsAt.coalesced {window after : Window} {edge : Edge}
    (joins : window.JoinsAt edge after) (coalesced : Coalesced window.blocks) :
    Coalesced after.blocks := by
  cases joins with
  | nothing blocks => rwa [blocks]
  | records records blocks =>
      rw [blocks]
      cases edge with
      | older => exact coalesced.joinFront records
      | newer => exact coalesced.joinBack records

theorem JoinsAt.tail_coalesced {window after : Window}
    (joins : window.JoinsAt .newer after)
    (coalesced : Coalesced window.blocks.tail) :
    Coalesced after.blocks.tail := by
  cases joins with
  | nothing blocks => rwa [blocks]
  | records records blocks =>
      rw [blocks]
      exact coalesced.tail_joinBack records

theorem joinsAt_of_append {window after : Window} {page : Page} {edge : Edge}
    (appended : window.append page edge = .ok after) :
    window.JoinsAt edge after := by
  unfold append at appended
  split at appended
  · cases appended
    exact .nothing rfl
  · split at appended
    · cases appended
      exact .records page.records rfl
    · split at appended
      · cases appended
        exact .records page.records rfl
      · cases appended

theorem joinsAt_of_fill {window after : Window} {page : Page} {edge : Edge}
    {added : Nat} (filled : window.fill page edge = .ok (added, after)) :
    window.JoinsAt edge after := by
  unfold fill at filled
  cases appended : window.append page edge with
  | error error => simp [appended, Except.map] at filled
  | ok grown =>
      simp only [appended, Except.map, Except.ok.injEq, Prod.mk.injEq] at filled
      exact filled.2 ▸ joinsAt_of_append appended

theorem joinsAt_of_splice {window after : Window} {page : Page} {edge : Edge}
    {added : Nat} (spliced : window.splice page edge = .ok (added, after)) :
    window.JoinsAt edge after := by
  unfold splice at spliced
  split at spliced
  · rename_i received held _ _
    split at spliced
    · cases spliced
    · cases appended : window.append (page.keepBeyond edge held) edge with
      | error error => simp [appended, Except.map] at spliced
      | ok grown =>
          simp only [appended, Except.map, Except.ok.injEq, Prod.mk.injEq]
            at spliced
          exact spliced.2 ▸ joinsAt_of_append appended
  · cases spliced
    exact .nothing rfl

theorem JoinsAt.of_blocks {window grown after : Window} {edge : Edge}
    (joins : window.JoinsAt edge grown) (same : after.blocks = grown.blocks) :
    window.JoinsAt edge after := by
  cases joins with
  | nothing blocks => exact .nothing (same.trans blocks)
  | records records blocks => exact .records records (same.trans blocks)

theorem joinsAt_of_mergeFetched {window after : Window} {page : Page}
    {fetched : Fetched} {movement : Movement}
    (merged : window.mergeFetched page fetched = .ok (movement, after)) :
    window.JoinsAt fetched.edge after := by
  unfold mergeFetched at merged
  cases empty : window.isEmpty with
  | true =>
      cases filled : window.fill page fetched.edge with
      | error error => simp [empty, filled, bind, Except.bind] at merged
      | ok grown =>
          simp only [empty, filled, if_true, bind, Except.bind, pure,
            Except.pure, Except.ok.injEq, Prod.mk.injEq] at merged
          obtain ⟨_, rfl⟩ := merged
          apply (joinsAt_of_fill filled).of_blocks
          rw [noteBoundary_eq]
          split <;> rfl
  | false =>
      cases spliced : window.splice page fetched.edge with
      | error error => simp [empty, spliced, bind, Except.bind] at merged
      | ok grown =>
          simp only [empty, spliced, Bool.false_eq_true, if_false, bind,
            Except.bind, pure, Except.pure, Except.ok.injEq, Prod.mk.injEq]
            at merged
          obtain ⟨_, rfl⟩ := merged
          apply (joinsAt_of_splice spliced).of_blocks
          rw [noteBoundary_eq]
          split <;> rfl

theorem joinsAt_of_mergeLive {window after : Window} {page : Page}
    {movement : Movement}
    (merged : window.mergeLive page = .ok (movement, after)) :
    window.JoinsAt .newer after := by
  unfold mergeLive at merged
  cases ignored : !window.reached.newer || page.isEmpty with
  | true =>
      simp only [ignored, if_true, pure, Except.pure, Except.ok.injEq,
        Prod.mk.injEq] at merged
      obtain ⟨_, rfl⟩ := merged
      exact .nothing rfl
  | false =>
      cases empty : window.isEmpty with
      | true =>
          cases filled : window.fill page .newer with
          | error error =>
              simp [ignored, empty, filled, bind, Except.bind] at merged
          | ok grown =>
              simp only [ignored, empty, filled, Bool.false_eq_true, if_false,
                if_true, bind, Except.bind, pure, Except.pure,
                Except.ok.injEq, Prod.mk.injEq] at merged
              obtain ⟨_, rfl⟩ := merged
              apply (joinsAt_of_fill filled).of_blocks
              split <;> rfl
      | false =>
          cases spliced : window.splice page .newer with
          | error error =>
              simp [ignored, empty, spliced, bind, Except.bind] at merged
          | ok grown =>
              simp only [ignored, empty, spliced, Bool.false_eq_true, if_false,
                bind, Except.bind, pure, Except.pure, Except.ok.injEq,
                Prod.mk.injEq] at merged
              obtain ⟨_, rfl⟩ := merged
              apply (joinsAt_of_splice spliced).of_blocks
              split <;> rfl

theorem Sound.blocks_eq_nil {window : Window} (sound : window.Sound)
    (empty : window.records = []) : window.blocks = [] := by
  rw [List.eq_nil_iff_forall_not_mem]
  intro block member
  exact sound.filled block member (List.flatten_eq_nil_iff.mp empty block member)

/-- Keeping the bound of a window that gives way at the older edge shortens or
removes its oldest blocks. -/
theorem tail_coalesced_enforceBound {window : Window} {grown : Edge}
    (yields : window.yieldingEdge grown = .older)
    (coalesced : Coalesced window.blocks.tail) (bound : Option Nat)
    (inFlight : Edge → Bool) (movement : Movement) :
    Coalesced
      (window.enforceBound bound grown inFlight movement).2.blocks.tail := by
  unfold enforceBound
  cases bound with
  | none => exact coalesced
  | some most =>
      simp only [yields]
      split
      · exact coalesced
      · split <;> exact coalesced.tail_dropFront _

end LogPager.Window
