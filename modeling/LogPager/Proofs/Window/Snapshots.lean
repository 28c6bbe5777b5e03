import LogPager.Proofs.Window.Records
import LogPager.Window.Snapshot

/-!
# What snapshots read

A snapshot of a sound window has the records of the window.  Reading one of
them, or the newest, walks over whole blocks, and comes to the same as reading
the list of all records.
-/

namespace LogPager

namespace Snapshot

theorem recordAt?_eq (blocks : List Block) (index : Nat) :
    recordAt? blocks index = blocks.flatten[index]? := by
  fun_induction recordAt? blocks index with
  | case1 index => rfl
  | case2 index block rest inside =>
      rw [List.flatten_cons, List.getElem?_append_left inside]
  | case3 index block rest beyond ih =>
      rw [ih, List.flatten_cons,
        List.getElem?_append_right (Nat.le_of_not_lt beyond)]

theorem flatten_newestBlocks (wanted : List Block) (count : Nat)
    (newestFirst : List Block) :
    (newestBlocks wanted count newestFirst).flatten =
      newestFirst.reverse.flatten.drop
        (newestFirst.reverse.flatten.length - count) ++ wanted.flatten := by
  induction newestFirst generalizing wanted count with
  | nil => cases count <;> simp [newestBlocks]
  | cons block older ih =>
      cases count with
      | zero => simp [newestBlocks]
      | succ count =>
          rw [newestBlocks, List.reverse_cons, List.flatten_append,
            List.flatten_singleton]
          split
          · rename_i fits
            have inside : (older.reverse.flatten ++ block).length -
                (count + 1) ≤ older.reverse.flatten.length := by
              rw [List.length_append]
              omega
            have same : older.reverse.flatten.length -
                (count + 1 - block.length) =
                (older.reverse.flatten ++ block).length - (count + 1) := by
              rw [List.length_append]
              omega
            rw [ih, List.flatten_cons, same,
              List.drop_append_of_le_length inside, List.append_assoc]
          · rename_i larger
            have beyond : older.reverse.flatten.length ≤
                (older.reverse.flatten ++ block).length - (count + 1) := by
              rw [List.length_append]
              omega
            have rest : (older.reverse.flatten ++ block).length - (count + 1) -
                older.reverse.flatten.length = block.length - (count + 1) := by
              rw [List.length_append]
              omega
            rw [List.drop_append, List.drop_eq_nil_of_le beyond, rest,
              List.flatten_cons, List.nil_append]

end Snapshot

theorem Window.Sound.get?_snapshot {window : Window} (sound : window.Sound)
    (index : Nat) : window.snapshot.get? index = window.records[index]? := by
  rw [Snapshot.get?, Snapshot.recordAt?_eq, snapshot, sound.shown]
  rfl

theorem Window.Sound.tail_snapshot {window : Window} (sound : window.Sound)
    (count : Nat) :
    window.snapshot.tail count =
      window.records.drop (window.records.length - count) := by
  simp only [Snapshot.tail, snapshot, Snapshot.flatten_newestBlocks,
    List.reverse_reverse, List.flatten_nil, List.append_nil, sound.shown,
    sound.counted]
  change window.records.drop
    (window.records.length - min count window.records.length) = _
  congr 1
  omega

end LogPager
