import LogPager.Proofs.Source.LineMaps
import Mathlib.Data.List.Basic
import Mathlib.Data.List.Induction

/-!
# Where the lines of a file start

A line starts at the beginning of a file and behind every newline in it.  A map
that is refreshed again and again, with files that keep the bytes of the lines
seen or are shorter than these, tells after every refresh what counting the
newlines of the whole file tells: how many lines there are, where they start and
which bytes any range of them has.
-/

namespace LogPager

/-- Where the complete lines of some bytes start, and where a line after them
would: at the beginning and behind each newline. -/
def lineStarts (bytes : List UInt8) : List Nat :=
  0 :: (bytes.idxsOf newline).map (· + 1)

theorem length_lineStarts (bytes : List UInt8) :
    (lineStarts bytes).length = bytes.count newline + 1 := by
  simp [lineStarts]

private theorem idxsOf_newline_free {line : List UInt8}
    (free : newline ∉ line) (offset : Nat) :
    line.idxsOf newline offset = [] := by
  rw [List.idxsOf_eq_nil_iff]
  intro byte member
  exact beq_false_of_ne fun same => free (same ▸ member)

private theorem idxsOf_bytesOfLines {lines : List (List UInt8)}
    (whole : ∀ line ∈ lines, newline ∉ line) :
    ((bytesOfLines lines).idxsOf newline).map (· + 1) =
      (List.range lines.length).map fun line => lineOffset lines (line + 1) := by
  induction lines using List.reverseRecOn with
  | nil => rfl
  | append_singleton lines line ih =>
      have wholeBefore : ∀ other ∈ lines, newline ∉ other := fun other member =>
        whole other (List.mem_append_left _ member)
      have free : newline ∉ line := whole line (by simp)
      have before : (List.range lines.length).map
            (fun index => lineOffset (lines ++ [line]) (index + 1)) =
          (List.range lines.length).map
            fun index => lineOffset lines (index + 1) := by
        apply List.map_congr_left
        intro index member
        exact lineOffset_append (List.mem_range.mp member) [line]
      have last : lineOffset (lines ++ [line]) (lines.length + 1) =
          (bytesOfLines lines).length + line.length + 1 := by
        rw [lineOffset_of_length_le (by simp)]
        simp [Nat.add_assoc]
      rw [List.length_append, List.length_singleton, List.range_succ,
        List.map_append, before, ← ih wholeBefore, List.map_singleton, last]
      simp [idxsOf_newline_free free]

/-- The starts are where the complete lines begin, and where they all end. -/
theorem lineStarts_eq (bytes : List UInt8) :
    lineStarts bytes = (List.range ((completeLines bytes).length + 1)).map
      (lineOffset (completeLines bytes)) := by
  obtain ⟨unfinished, free, same⟩ := bytesOfLines_completeLines bytes
  have found : (bytes.idxsOf newline).map (· + 1) =
      (List.range (completeLines bytes).length).map fun line =>
        lineOffset (completeLines bytes) (line + 1) := by
    rw [← idxsOf_bytesOfLines fun _ => newline_not_mem_of_completeLines]
    conv_lhs => rw [← same]
    rw [List.idxsOf_append, idxsOf_newline_free free, List.append_nil]
  rw [lineStarts, found, List.range_succ_eq_map, List.map_cons, List.map_map]
  rfl

theorem count_newline (bytes : List UInt8) :
    bytes.count newline = (completeLines bytes).length := by
  have lengths := congrArg List.length (lineStarts_eq bytes)
  rw [length_lineStarts, List.length_map, List.length_range] at lengths
  exact Nat.succ.inj lengths

theorem getElem?_lineStarts {bytes : List UInt8} {line : Nat}
    (inside : line ≤ (completeLines bytes).length) :
    (lineStarts bytes)[line]? =
      some (lineOffset (completeLines bytes) line) := by
  rw [lineStarts_eq, List.getElem?_map,
    List.getElem?_range (Nat.lt_succ_of_le inside), Option.map_some]

theorem getLast?_lineStarts (bytes : List UInt8) :
    (lineStarts bytes).getLast? =
      some (bytesOfLines (completeLines bytes)).length := by
  rw [lineStarts_eq, List.getLast?_map, List.range_succ,
    List.getLast?_concat, Option.map_some,
    lineOffset_of_length_le (Nat.le_refl _)]

namespace LineMap

/-- Maps that some files lead to, each of which keeps the bytes of the lines
seen in the one before or is shorter than these. -/
inductive Refreshed (interval : Nat) : LineMap → List UInt8 → Prop
  | new : Refreshed interval (empty interval) []
  | next {map : LineMap} {seen data : List UInt8}
      (before : Refreshed interval map seen)
      (follows : data.take map.indexedBytes = seen.take map.indexedBytes ∨
        data.length < map.indexedBytes) :
      Refreshed interval (map.refresh data) data

theorem interval_scan (map : LineMap) (offset : Nat) (bytes : List UInt8) :
    (map.scan offset bytes).interval = map.interval := by
  induction bytes generalizing map offset with
  | nil => rfl
  | cons byte rest ih =>
      rw [scan, ih]
      split <;> rfl

theorem interval_refresh {map : LineMap} (positive : 0 < map.interval)
    (data : List UInt8) : (map.refresh data).interval = map.interval := by
  rw [refresh, interval_scan]
  split
  · exact Nat.max_eq_left positive
  · rfl

theorem Refreshed.maps {interval : Nat} {map : LineMap} {data : List UInt8}
    (refreshed : Refreshed interval map data) :
    map.Maps (completeLines data) ∧ map.interval = max interval 1 := by
  induction refreshed with
  | new => exact ⟨empty_maps interval, rfl⟩
  | @next map seen data before follows ih =>
      obtain ⟨maps, same⟩ := ih
      refine ⟨maps.refresh ?_, (interval_refresh maps.positive data).trans same⟩
      rw [maps.indexed] at follows
      refine follows.imp (fun agrees => ?_) id
      have kept := List.prefix_iff_eq_take.mp (completeLines_begin seen)
      rw [kept, ← agrees]
      exact List.take_prefix _ _

theorem Maps.size_checkpoints {map : LineMap} {lines : List (List UInt8)}
    (maps : map.Maps lines) :
    map.checkpoints.size = map.lines / map.interval + 1 := by
  rw [← Array.length_toList, maps.checkpoints, List.length_map,
    List.length_range, maps.counted]

theorem Maps.getElem?_checkpoints {map : LineMap} {data : List UInt8}
    (maps : map.Maps (completeLines data)) {slot : Nat}
    (inside : slot < map.checkpoints.size) :
    map.checkpoints[slot]? = (lineStarts data)[slot * map.interval]? := by
  rw [maps.size_checkpoints, maps.counted] at inside
  have within : slot * map.interval ≤ (completeLines data).length :=
    (Nat.le_div_iff_mul_le maps.positive).mp (Nat.le_of_lt_succ inside)
  rw [getElem?_lineStarts within, ← Array.getElem?_toList, maps.checkpoints,
    List.getElem?_map, List.getElem?_range inside, Option.map_some]

theorem byteSpan?_eq_none {map : LineMap} {range : LineRange}
    (outside : ¬(range.start ≤ range.stop ∧ range.stop ≤ map.lines))
    (data : List UInt8) : map.byteSpan? data range = none := by
  rw [byteSpan?, if_pos]
  simp only [Bool.or_eq_true, decide_eq_true_eq]
  omega

/-- However often a map was refreshed, with whatever growing, rewritten or
shortened files, it counts the newlines of the last one, knows where the last
line ends, has a checkpoint at the start of every so many lines, and gives for a
range of lines the places where these start and end, in the file and in any
longer one, and for anything else nothing. -/
theorem Refreshed.tells_line_starts {interval : Nat} {map : LineMap}
    {data : List UInt8} (refreshed : Refreshed interval map data) :
    map.lines = data.count newline ∧
      (lineStarts data).getLast? = some map.indexedBytes ∧
      map.checkpoints.size = map.lines / max interval 1 + 1 ∧
      (∀ slot < map.checkpoints.size,
        map.checkpoints[slot]? = (lineStarts data)[slot * max interval 1]?) ∧
      ∀ longer, data <+: longer → ∀ range : LineRange,
        (range.start ≤ range.stop ∧ range.stop ≤ map.lines →
          ∃ start stop,
            (lineStarts data)[range.start]? = some start ∧
            (lineStarts data)[range.stop]? = some stop ∧
            map.byteSpan? longer range = some (start, stop)) ∧
        (¬(range.start ≤ range.stop ∧ range.stop ≤ map.lines) →
          map.byteSpan? longer range = none) := by
  obtain ⟨maps, same⟩ := refreshed.maps
  rw [← same]
  refine ⟨?_, ?_, maps.size_checkpoints, fun _ => maps.getElem?_checkpoints, ?_⟩
  · rw [maps.counted, count_newline]
  · rw [getLast?_lineStarts, maps.indexed]
  · intro longer within range
    refine ⟨fun ⟨ordered, inside⟩ => ?_, fun outside => ?_⟩
    · rw [maps.counted] at inside
      have located := maps.byteSpan?_eq ((completeLines_begin data).trans within)
        ordered inside
      exact ⟨_, _, getElem?_lineStarts (Nat.le_trans ordered inside),
        getElem?_lineStarts inside, located⟩
    · exact byteSpan?_eq_none outside longer

/-- A file of two lines and the beginning of a third one. -/
private def unfinishedFile : List UInt8 :=
  [0x61, 0x0A, 0x62, 0x0A, 0x63]

/-- The file with the third line at its end, and a fourth one. -/
private def finishedFile : List UInt8 :=
  unfinishedFile ++ [0x64, 0x0A, 0x0A]

/-- The file grows to four lines and is then cut to one; a range that leads to the
end of the lines is found in what is longer, and gone after the cut. -/
theorem tells_line_starts_of_cut :
    let map := ((empty 2).refresh unfinishedFile).refresh finishedFile
    Refreshed 2 map finishedFile ∧ lineStarts finishedFile = [0, 2, 4, 7, 8] ∧
      map.lines = 4 ∧ map.byteSpan? (finishedFile ++ [0x65]) ⟨1, 4⟩ = some (2, 8) ∧
      (map.refresh [0x78, 0x0A]).byteSpan? [0x78, 0x0A] ⟨1, 4⟩ = none := by
  intro map
  have first : Refreshed 2 ((empty 2).refresh unfinishedFile) unfinishedFile :=
    Refreshed.new.next (.inl rfl)
  have refreshed : Refreshed 2 map finishedFile := first.next (.inl (by decide))
  obtain ⟨lines, _, _, _, spans⟩ := refreshed.tells_line_starts
  have counted : map.lines = 4 := lines.trans (by decide)
  have cut : Refreshed 2 (map.refresh [0x78, 0x0A]) [0x78, 0x0A] :=
    refreshed.next (.inr (by decide))
  obtain ⟨one, _, _, _, gone⟩ := cut.tells_line_starts
  have fewer : (map.refresh [0x78, 0x0A]).lines = 1 := one.trans (by decide)
  refine ⟨refreshed, by decide, counted, ?_, ?_⟩
  · obtain ⟨start, stop, begins, ends, found⟩ :=
      (spans (finishedFile ++ [0x65]) (List.prefix_append _ _) ⟨1, 4⟩).1
        ⟨by decide, Nat.le_of_eq counted.symm⟩
    rw [found]
    cases begins
    cases ends
    rfl
  · apply (gone [0x78, 0x0A] (List.prefix_refl _) ⟨1, 4⟩).2
    rw [fewer]
    decide

end LineMap
end LogPager
