import LogPager.Proofs.Window.Operations
import LogPager.Proofs.Window.Snapshots
import Mathlib.Data.Nat.PSub

/-!
# Reading single and newest records

Reading a snapshot counts block lengths up from the oldest block or down from
the newest one, and takes each from what is left to count.  Written with indices
and with differences that fail below zero, the same walks never fail: what is
left is never less than what is taken from it, and a block is there as long as
records are wanted.  This needs the length that a snapshot holds beside its
blocks to be that of its records.
-/

namespace LogPager

namespace Snapshot

/-- The record at an offset into blocks, with the differences of offsets and
block lengths that may not exist. -/
def recordFrom? : List Block → Nat → Option (Option Record)
  | [], _ => some none
  | block :: rest, offset =>
      if offset < block.length then some block[offset]?
      else (offset.psub block.length).bind (recordFrom? rest)

/-- How many blocks are left, and how many records still wanted of the last of
them, when whole blocks that are wanted were passed from the back. -/
def walkBack? (blocks : List Block) (first remaining : Nat) :
    Option (Nat × Nat) :=
  match first with
  | 0 => some (0, remaining)
  | before + 1 =>
      if remaining = 0 then some (before + 1, 0)
      else
        blocks[before]?.bind fun block =>
          if remaining < block.length then some (before + 1, remaining)
          else (remaining.psub block.length).bind (walkBack? blocks before)

/-- The first block that is wanted, and how many of its records are not. -/
def startOf? (blocks : List Block) (first remaining : Nat) :
    Option (Nat × Nat) :=
  if 0 < remaining then do
    let start ← first.psub 1
    let block ← blocks[start]?
    let skip ← block.length.psub remaining
    return (start, skip)
  else some (first, 0)

/-- The last `count` records, oldest first, unless an index or a difference does
not exist. -/
def tail? (snapshot : Snapshot) (count : Nat) : Option (List Record) := do
  let blocks := snapshot.blocks
  let (first, remaining) ←
    walkBack? blocks blocks.length (min count snapshot.length)
  let (start, skip) ← startOf? blocks first remaining
  if start ≤ blocks.length then
    return (blocks.drop start).flatten.drop skip
  else none

theorem recordFrom?_eq (blocks : List Block) (offset : Nat) :
    recordFrom? blocks offset = some (recordAt? blocks offset) := by
  fun_induction recordAt? blocks offset with
  | case1 offset => rfl
  | case2 offset block rest inside => rw [recordFrom?, if_pos inside]
  | case3 offset block rest beyond ih =>
      rw [recordFrom?, if_neg beyond,
        Nat.psub_eq_sub (Nat.le_of_not_lt beyond), Option.bind_some, ih]

theorem length_flatten_take_succ {blocks : List Block} {before : Nat}
    {block : Block} (found : blocks[before]? = some block) :
    (blocks.take (before + 1)).flatten.length =
      (blocks.take before).flatten.length + block.length := by
  rw [List.take_add_one, found, Option.toList_some, List.flatten_concat,
    List.length_append]

/-- Where a walk back from the end of the first blocks stops: at the end of a
block, of which fewer records are still wanted than it has. -/
structure StopsAt (blocks : List Block) (first remaining : Nat)
    (stop : Nat × Nat) : Prop where
  inside : stop.1 ≤ first
  passed : (blocks.take stop.1).flatten.length + remaining =
    (blocks.take first).flatten.length + stop.2
  partly : stop.2 = 0 ∨ ∃ before block, stop.1 = before + 1 ∧
    blocks[before]? = some block ∧ stop.2 < block.length

theorem exists_walkBack? {blocks : List Block} {first remaining : Nat}
    (inside : first ≤ blocks.length)
    (enough : remaining ≤ (blocks.take first).flatten.length) :
    ∃ stop, walkBack? blocks first remaining = some stop ∧
      StopsAt blocks first remaining stop := by
  induction first generalizing remaining with
  | zero =>
      have nothing : remaining = 0 := by simpa using enough
      exact ⟨(0, remaining), rfl, Nat.le_refl _, rfl, .inl nothing⟩
  | succ before ih =>
      by_cases nothing : remaining = 0
      · rw [walkBack?, if_pos nothing, nothing]
        exact ⟨_, rfl, Nat.le_refl _, rfl, .inl rfl⟩
      · have found := List.getElem?_eq_getElem inside
        have total := length_flatten_take_succ found
        rw [walkBack?, if_neg nothing, found, Option.bind_some]
        by_cases larger : remaining < blocks[before].length
        · rw [if_pos larger]
          exact ⟨_, rfl, Nat.le_refl _, rfl, .inr ⟨before, _, rfl, found, larger⟩⟩
        · -- The whole block is wanted, and what is wanted beyond it is less.
          have fits := Nat.le_of_not_lt larger
          have fewer : remaining - blocks[before].length ≤
              (blocks.take before).flatten.length := by
            omega
          obtain ⟨stop, walked, stops⟩ := ih (Nat.le_of_succ_le inside) fewer
          rw [if_neg larger, Nat.psub_eq_sub fits, Option.bind_some]
          refine ⟨stop, walked, Nat.le_succ_of_le stops.inside, ?_, stops.partly⟩
          have passed := stops.passed
          omega

/-- The record at which the wanted ones begin, in the first of their blocks. -/
theorem StopsAt.exists_startOf? {blocks : List Block} {first remaining : Nat}
    {stop : Nat × Nat} (stops : StopsAt blocks first remaining stop) :
    ∃ start skip, startOf? blocks stop.1 stop.2 = some (start, skip) ∧
      start ≤ first ∧
      (blocks.take start).flatten.length + skip + remaining =
        (blocks.take first).flatten.length := by
  obtain ⟨last, left⟩ := stop
  have passed := stops.passed
  rcases stops.partly with rfl | ⟨before, block, rfl, found, fewer⟩
  · exact ⟨last, 0, rfl, stops.inside, passed⟩
  · have total := length_flatten_take_succ found
    by_cases nothing : left = 0
    · subst nothing
      exact ⟨before + 1, 0, rfl, stops.inside, passed⟩
    · refine ⟨before, block.length - left, ?_,
        Nat.le_of_succ_le stops.inside, ?_⟩
      · have one : (before + 1).psub 1 = some before := rfl
        have rest := Nat.psub_eq_sub (Nat.le_of_lt fewer)
        simp only [startOf?, if_pos (Nat.pos_of_ne_zero nothing), one, found,
          rest, bind, Option.bind, pure]
      · simp only at passed
        omega

theorem drop_flatten_drop (blocks : List Block) (start skip : Nat) :
    (blocks.drop start).flatten.drop skip =
      blocks.flatten.drop ((blocks.take start).flatten.length + skip) := by
  have parted : blocks.flatten =
      (blocks.take start).flatten ++ (blocks.drop start).flatten := by
    rw [← List.flatten_append, List.take_append_drop]
  rw [parted, List.drop_length_add_append]

/-- Where the length that a snapshot holds is that of its records, reading the
last of them does not fail. -/
theorem tail?_eq {snapshot : Snapshot}
    (counted : snapshot.length = snapshot.records.length) (count : Nat) :
    snapshot.tail? count = some (snapshot.records.drop
      (snapshot.records.length - min count snapshot.records.length)) := by
  have enough : min count snapshot.length ≤
      (snapshot.blocks.take snapshot.blocks.length).flatten.length := by
    rw [List.take_length, counted]
    exact Nat.min_le_right _ _
  obtain ⟨stop, walked, stops⟩ := exists_walkBack? (Nat.le_refl _) enough
  obtain ⟨start, skip, begun, inside, placed⟩ := stops.exists_startOf?
  have place : (snapshot.blocks.take start).flatten.length + skip =
      snapshot.records.length - min count snapshot.records.length := by
    rw [List.take_length, counted] at placed
    exact Nat.eq_sub_of_add_eq placed
  simp only [tail?, walked, begun, bind, Option.bind, if_pos inside, pure]
  rw [drop_flatten_drop, place]
  rfl

/-- Two records in two blocks, with the given length beside them. -/
private def twoRecords (length : Nat) : Snapshot :=
  { blocks := [[{ position := 0 }], [{ position := 1 }]], length, view := {} }

example : (twoRecords 2).tail? 3 =
    some [{ position := 0 }, { position := 1 }] := by
  decide

/-- A length beyond the records leaves a block wanted that is not there. -/
example : (twoRecords 3).tail? 3 = none := by
  decide

end Snapshot

namespace Window

/-- After any operations on an empty window a snapshot gives at every index the
record at this index of all held records, and none beyond them, and of every
number the last so many held records, oldest first, or all if there are fewer.
The length that it holds is that of the records, and walking over indices does
not fail. -/
theorem reads_after_run (reached : PerEdge Bool) (versions : Versions)
    (operations : List Operation) :
    let window := run { reached, versions } operations
    let snapshot := window.snapshot
    snapshot.length = window.records.length ∧
      (∀ index, snapshot.get? index = window.records[index]?) ∧
      (∀ count, snapshot.tail count = window.records.drop
        (window.records.length - min count window.records.length)) ∧
      (∀ index, Snapshot.recordFrom? snapshot.blocks index =
        some (snapshot.get? index)) ∧
      ∀ count, snapshot.tail? count = some (snapshot.tail count) := by
  intro window snapshot
  have sound : window.Sound := (sound_of_blank reached versions).run operations
  have shown : snapshot.records = window.records :=
    congrArg List.flatten sound.shown
  have counted : snapshot.length = snapshot.records.length := by
    rw [shown]
    exact sound.counted
  have newest : ∀ count, snapshot.tail count = window.records.drop
      (window.records.length - min count window.records.length) := by
    intro count
    have same : window.records.length - min count window.records.length =
        window.records.length - count := by omega
    rw [same, sound.tail_snapshot]
  refine ⟨sound.counted, sound.get?_snapshot, newest, ?_, ?_⟩
  · exact Snapshot.recordFrom?_eq snapshot.blocks
  · intro count
    rw [Snapshot.tail?_eq counted, shown, newest]

end Window
end LogPager
