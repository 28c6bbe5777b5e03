import LogPager.Proofs.Source.CompleteLines

/-!
# Line maps describe the complete lines

A line map of some lines counts them and their bytes, and its checkpoints are
where every so many of them begin.  Refreshing it with a grown or a shortened
file makes it a map of the complete lines of this file.  The span it gives for
a range of lines is then exactly where these lines begin and end, in the file
itself and in any longer one.
-/

namespace LogPager
namespace LineMap

/-- A map of the given lines. -/
structure Maps (map : LineMap) (lines : List (List UInt8)) : Prop where
  positive : 0 < map.interval
  whole : ∀ line ∈ lines, newline ∉ line
  counted : map.lines = lines.length
  indexed : map.indexedBytes = (bytesOfLines lines).length
  checkpoints : map.checkpoints.toList =
    (List.range (lines.length / map.interval + 1)).map fun index =>
      lineOffset lines (index * map.interval)

theorem empty_maps (interval : Nat) : (empty interval).Maps [] := by
  constructor
  · exact Nat.lt_of_lt_of_le Nat.one_pos (Nat.le_max_right _ _)
  · intro line member
    cases member
  · rfl
  · rfl
  · simp [empty, lineOffset, List.range_succ]

theorem Maps.addLine {map : LineMap} {lines : List (List UInt8)}
    (maps : map.Maps lines) {line : List UInt8} (free : newline ∉ line) :
    (map.addLine ((bytesOfLines lines).length + line.length + 1)).Maps
      (lines ++ [line]) := by
  have grown : (bytesOfLines (lines ++ [line])).length =
      (bytesOfLines lines).length + line.length + 1 := by
    simp [Nat.add_assoc]
  -- The checkpoints set before do not move.
  have kept : (List.range (lines.length / map.interval + 1)).map (fun index =>
        lineOffset (lines ++ [line]) (index * map.interval)) =
      map.checkpoints.toList := by
    rw [maps.checkpoints]
    apply List.map_congr_left
    intro index member
    have before : index ≤ lines.length / map.interval :=
      Nat.le_of_lt_succ (List.mem_range.mp member)
    exact lineOffset_append
      ((Nat.le_div_iff_mul_le maps.positive).mp before) [line]
  refine ⟨maps.positive, ?_, ?_, grown.symm, ?_⟩
  · intro other member
    rcases List.mem_append.mp member with earlier | last
    · exact maps.whole other earlier
    · exact List.mem_singleton.mp last ▸ free
  · simp [LineMap.addLine, maps.counted]
  · simp only [LineMap.addLine, maps.counted, List.length_append,
      List.length_singleton]
    by_cases multiple : (lines.length + 1) % map.interval = 0
    · have next : (lines.length + 1) / map.interval =
          lines.length / map.interval + 1 :=
        Nat.succ_div_of_mod_eq_zero multiple
      have reached : (lines.length / map.interval + 1) * map.interval =
          (lines ++ [line]).length := by
        have divides := Nat.div_mul_cancel (Nat.dvd_of_mod_eq_zero multiple)
        rw [next] at divides
        simpa using divides
      rw [if_pos multiple, Array.toList_push, next, List.range_succ,
        List.map_append, kept, List.map_singleton, reached,
        lineOffset_of_length_le (Nat.le_refl _), grown]
    · have same : (lines.length + 1) / map.interval =
          lines.length / map.interval :=
        Nat.succ_div_of_mod_ne_zero multiple
      rw [if_neg multiple, same, kept]

private theorem Maps.scan_from {map : LineMap} {lines : List (List UInt8)}
    (maps : map.Maps lines) {begun : List UInt8} (free : newline ∉ begun)
    (bytes : List UInt8) :
    (map.scan ((bytesOfLines lines).length + begun.length) bytes).Maps
      (lines ++ completeLines (begun ++ bytes)) := by
  induction bytes generalizing map lines begun with
  | nil =>
      rw [List.append_nil, completeLines_eq_nil free, List.append_nil]
      exact maps
  | cons byte rest ih =>
      by_cases ends : byte = newline
      · have next := ih (maps.addLine free) (List.not_mem_nil)
        rw [scan, if_pos ends, ends, completeLines_append_newline free]
        have offset : (bytesOfLines (lines ++ [begun])).length =
            (bytesOfLines lines).length + begun.length + 1 := by
          simp [Nat.add_assoc]
        rw [offset] at next
        simpa using next
      · have longer : newline ∉ begun ++ [byte] := by
          simp [free, Ne.symm ends]
        have next := ih maps longer
        rw [scan, if_neg ends]
        simpa [Nat.add_assoc] using next

theorem Maps.scan {map : LineMap} {lines : List (List UInt8)}
    (maps : map.Maps lines) (bytes : List UInt8) :
    (map.scan map.indexedBytes bytes).Maps (lines ++ completeLines bytes) := by
  rw [maps.indexed]
  exact maps.scan_from List.not_mem_nil bytes

/-- A file that has kept the lines seen, or has become shorter than them, gets
a map of its complete lines. -/
theorem Maps.refresh {map : LineMap} {lines : List (List UInt8)}
    (maps : map.Maps lines) {data : List UInt8}
    (follows : bytesOfLines lines <+: data ∨
      data.length < (bytesOfLines lines).length) :
    (map.refresh data).Maps (completeLines data) := by
  by_cases shorter : data.length < map.indexedBytes
  · have anew := (empty_maps map.interval).scan data
    rw [LineMap.refresh, if_pos shorter]
    simpa [empty] using anew
  · have grown : bytesOfLines lines <+: data := by
      rw [maps.indexed] at shorter
      exact follows.resolve_right shorter
    obtain ⟨more, rfl⟩ := grown
    have on := maps.scan more
    rw [LineMap.refresh, if_neg shorter,
      completeLines_bytesOfLines_append maps.whole]
    simpa [maps.indexed] using on

private theorem afterNewline?_append {line : List UInt8}
    (free : newline ∉ line) (offset count : Nat) (rest : List UInt8) :
    afterNewline? offset (count + 1) (line ++ newline :: rest) =
      afterNewline? (offset + line.length + 1) count rest := by
  induction line generalizing offset with
  | nil => simp [afterNewline?]
  | cons byte line ih =>
      obtain ⟨different, freeLine⟩ := List.ne_and_not_mem_of_not_mem_cons free
      rw [List.cons_append, afterNewline?, if_neg different.symm, ih freeLine,
        List.length_cons, Nat.add_right_comm offset 1, Nat.add_assoc offset]

theorem afterNewline?_bytesOfLines {lines : List (List UInt8)}
    (whole : ∀ line ∈ lines, newline ∉ line) (offset : Nat) {count : Nat}
    (inside : count ≤ lines.length) :
    afterNewline? offset count (bytesOfLines lines) =
      some (offset + lineOffset lines count) := by
  induction lines generalizing offset count with
  | nil =>
      cases Nat.le_zero.mp inside
      rfl
  | cons line lines ih =>
      cases count with
      | zero => simp [afterNewline?, lineOffset]
      | succ count =>
          have first : newline ∉ line := whole line List.mem_cons_self
          have others : ∀ other ∈ lines, newline ∉ other := fun other member =>
            whole other (List.mem_cons_of_mem _ member)
          rw [bytesOfLines_cons, afterNewline?_append first,
            ih others _ (Nat.le_of_succ_le_succ inside)]
          simp [lineOffset, Nat.add_assoc, Nat.add_comm 1]

/-- Skipping lines leads from the beginning of one to that of another. -/
theorem skipLines?_eq {lines : List (List UInt8)}
    (whole : ∀ line ∈ lines, newline ∉ line) {data : List UInt8}
    (within : bytesOfLines lines <+: data) {line count : Nat}
    (inside : line + count ≤ lines.length) :
    skipLines? data (lineOffset lines line) count (bytesOfLines lines).length =
      some (lineOffset lines (line + count)) := by
  unfold skipLines?
  by_cases none : count = 0
  · rw [if_pos none, none, Nat.add_zero]
  · have bounds : ((bytesOfLines lines).length < lineOffset lines line ||
        data.length < (bytesOfLines lines).length) = false := by
      simp [lineOffset_le, within.length_le]
    have rest : count ≤ (lines.drop line).length := by
      rw [List.length_drop]
      omega
    have wholeRest : ∀ other ∈ lines.drop line, newline ∉ other :=
      fun other member => whole other (List.mem_of_mem_drop member)
    rw [if_neg none, bounds, if_neg Bool.false_ne_true,
      ← List.prefix_iff_eq_take.mp within, drop_lineOffset,
      afterNewline?_bytesOfLines wholeRest _ rest, ← lineOffset_add]

theorem Maps.locate?_eq {map : LineMap} {lines : List (List UInt8)}
    (maps : map.Maps lines) {data : List UInt8}
    (within : bytesOfLines lines <+: data) {line : Nat}
    (inside : line ≤ lines.length) :
    map.locate? data line = some (lineOffset lines line) := by
  unfold locate?
  rw [maps.counted, maps.indexed]
  by_cases last : line = lines.length
  · rw [if_pos last, lineOffset_of_length_le (Nat.le_of_eq last.symm)]
  · have slot : line / map.interval < lines.length / map.interval + 1 :=
      Nat.lt_succ_of_le (Nat.div_le_div_right inside)
    have checkpoint : map.checkpoints[line / map.interval]? =
        some (lineOffset lines (line / map.interval * map.interval)) := by
      rw [← Array.getElem?_toList, maps.checkpoints]
      simp [slot]
    have onward : line / map.interval * map.interval + line % map.interval =
        line := by
      rw [Nat.mul_comm]
      exact Nat.div_add_mod line map.interval
    rw [if_neg last, checkpoint, Option.bind_some,
      skipLines?_eq maps.whole within (by rw [onward]; exact inside), onward]

/-- The span of a range of lines is where they begin and end. -/
theorem Maps.byteSpan?_eq {map : LineMap} {lines : List (List UInt8)}
    (maps : map.Maps lines) {data : List UInt8}
    (within : bytesOfLines lines <+: data) {range : LineRange}
    (ordered : range.start ≤ range.stop) (inside : range.stop ≤ lines.length) :
    map.byteSpan? data range =
      some (lineOffset lines range.start, lineOffset lines range.stop) := by
  have located := maps.locate?_eq within (Nat.le_trans ordered inside)
  have onward : range.start + (range.stop - range.start) = range.stop :=
    Nat.add_sub_of_le ordered
  have skipped := skipLines?_eq maps.whole within
    (show range.start + (range.stop - range.start) ≤ lines.length by
      rw [onward]
      exact inside)
  rw [onward] at skipped
  have allowed : (range.stop < range.start || map.lines < range.stop) =
      false := by
    simp [maps.counted, ordered, inside]
  unfold byteSpan?
  rw [allowed, if_neg Bool.false_ne_true, located, maps.indexed]
  simp [skipped]

end LineMap
end LogPager
