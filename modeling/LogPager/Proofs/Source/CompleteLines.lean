import LogPager.Source.LineMap

/-!
# The complete lines of a file

A line is complete once its newline is written.  Bytes that are appended leave
the complete lines before them as they are and may add others, so the complete
lines of a growing file only ever grow at their end.
-/

namespace LogPager

/-- The lines of some bytes that end in a newline, without it. -/
def completeLines : List UInt8 → List (List UInt8)
  | [] => []
  | byte :: rest =>
      if byte = newline then [] :: completeLines rest
      else
        match completeLines rest with
        | [] => []
        | line :: lines => (byte :: line) :: lines

/-- The bytes of some lines, each with its newline. -/
def bytesOfLines (lines : List (List UInt8)) : List UInt8 :=
  lines.flatMap (· ++ [newline])

/-- Where a line begins. -/
def lineOffset (lines : List (List UInt8)) (line : Nat) : Nat :=
  (bytesOfLines (lines.take line)).length

@[simp] theorem bytesOfLines_nil : bytesOfLines [] = [] := rfl

@[simp] theorem bytesOfLines_cons (line : List UInt8)
    (lines : List (List UInt8)) :
    bytesOfLines (line :: lines) = line ++ newline :: bytesOfLines lines := by
  simp [bytesOfLines]

@[simp] theorem bytesOfLines_append (left right : List (List UInt8)) :
    bytesOfLines (left ++ right) = bytesOfLines left ++ bytesOfLines right :=
  List.flatMap_append

theorem lineOffset_of_length_le {lines : List (List UInt8)} {line : Nat}
    (all : lines.length ≤ line) :
    lineOffset lines line = (bytesOfLines lines).length := by
  rw [lineOffset, List.take_of_length_le all]

theorem lineOffset_append {lines : List (List UInt8)} {line : Nat}
    (inside : line ≤ lines.length) (more : List (List UInt8)) :
    lineOffset (lines ++ more) line = lineOffset lines line := by
  rw [lineOffset, List.take_append_of_le_length inside]
  rfl

theorem lineOffset_add (lines : List (List UInt8)) (line count : Nat) :
    lineOffset lines (line + count) =
      lineOffset lines line + lineOffset (lines.drop line) count := by
  rw [lineOffset, List.take_add, bytesOfLines_append, List.length_append]
  rfl

theorem bytesOfLines_eq_append (lines : List (List UInt8)) (line : Nat) :
    bytesOfLines lines =
      bytesOfLines (lines.take line) ++ bytesOfLines (lines.drop line) := by
  rw [← bytesOfLines_append, List.take_append_drop]

theorem lineOffset_le (lines : List (List UInt8)) (line : Nat) :
    lineOffset lines line ≤ (bytesOfLines lines).length := by
  rw [bytesOfLines_eq_append lines line, List.length_append]
  exact Nat.le_add_right _ _

theorem take_lineOffset (lines : List (List UInt8)) (line : Nat) :
    (bytesOfLines lines).take (lineOffset lines line) =
      bytesOfLines (lines.take line) := by
  rw [bytesOfLines_eq_append lines line]
  exact List.take_left

theorem drop_lineOffset (lines : List (List UInt8)) (line : Nat) :
    (bytesOfLines lines).drop (lineOffset lines line) =
      bytesOfLines (lines.drop line) := by
  rw [bytesOfLines_eq_append lines line]
  exact List.drop_left

/-- The bytes between the beginnings of two lines are those of the lines
between, also in a longer file. -/
theorem take_drop_lineOffset {lines : List (List UInt8)} {data : List UInt8}
    (within : bytesOfLines lines <+: data) {start stop : Nat}
    (ordered : start ≤ stop) :
    (data.drop (lineOffset lines start)).take
        (lineOffset lines stop - lineOffset lines start) =
      bytesOfLines ((lines.take stop).drop start) := by
  have before : data.take (lineOffset lines stop) =
      bytesOfLines (lines.take stop) := by
    obtain ⟨more, rfl⟩ := within
    rw [List.take_append_of_le_length (lineOffset_le lines stop),
      take_lineOffset]
  have same : lineOffset lines start = lineOffset (lines.take stop) start := by
    rw [lineOffset, lineOffset, List.take_take, Nat.min_eq_left ordered]
  rw [← List.drop_take, before, same, drop_lineOffset]

theorem completeLines_eq_nil {bytes : List UInt8} (free : newline ∉ bytes) :
    completeLines bytes = [] := by
  induction bytes with
  | nil => rfl
  | cons byte rest ih =>
      obtain ⟨different, freeRest⟩ := List.ne_and_not_mem_of_not_mem_cons free
      rw [completeLines, if_neg different.symm, ih freeRest]

theorem completeLines_append_newline {line : List UInt8}
    (free : newline ∉ line) (rest : List UInt8) :
    completeLines (line ++ newline :: rest) = line :: completeLines rest := by
  induction line with
  | nil => simp [completeLines]
  | cons byte line ih =>
      obtain ⟨different, freeLine⟩ := List.ne_and_not_mem_of_not_mem_cons free
      rw [List.cons_append, completeLines, if_neg different.symm, ih freeLine]

theorem newline_not_mem_of_completeLines {bytes line : List UInt8}
    (member : line ∈ completeLines bytes) : newline ∉ line := by
  induction bytes generalizing line with
  | nil => cases member
  | cons byte rest ih =>
      rw [completeLines] at member
      split at member
      · rcases List.mem_cons.mp member with rfl | later
        · exact List.not_mem_nil
        · exact ih later
      · rename_i different
        split at member
        · cases member
        · rename_i first lines same
          rcases List.mem_cons.mp member with rfl | later
          · have free : newline ∉ first := by
              apply ih
              rw [same]
              exact List.mem_cons_self
            exact List.not_mem_cons_of_ne_of_not_mem
              (fun equal => different equal.symm) free
          · apply ih
            rw [same]
            exact List.mem_cons_of_mem _ later

theorem completeLines_bytesOfLines_append {lines : List (List UInt8)}
    (free : ∀ line ∈ lines, newline ∉ line) (rest : List UInt8) :
    completeLines (bytesOfLines lines ++ rest) = lines ++ completeLines rest := by
  induction lines with
  | nil => rfl
  | cons line lines ih =>
      have first : newline ∉ line := free line List.mem_cons_self
      have others : ∀ other ∈ lines, newline ∉ other := fun other member =>
        free other (List.mem_cons_of_mem _ member)
      calc
        completeLines (bytesOfLines (line :: lines) ++ rest) =
            completeLines (line ++ newline :: (bytesOfLines lines ++ rest)) := by
          simp
        _ = line :: completeLines (bytesOfLines lines ++ rest) :=
          completeLines_append_newline first _
        _ = line :: (lines ++ completeLines rest) := by
          rw [ih others]

/-- Bytes are their complete lines and an unfinished one. -/
theorem bytesOfLines_completeLines (bytes : List UInt8) :
    ∃ unfinished, newline ∉ unfinished ∧
      bytesOfLines (completeLines bytes) ++ unfinished = bytes := by
  induction bytes with
  | nil => exact ⟨[], List.not_mem_nil, rfl⟩
  | cons byte rest ih =>
      obtain ⟨unfinished, free, whole⟩ := ih
      rw [completeLines]
      split
      · rename_i same
        refine ⟨unfinished, free, ?_⟩
        simp [whole, same]
      · rename_i different
        split
        · rename_i none
          rw [none] at whole
          refine ⟨byte :: unfinished, ?_, ?_⟩
          · exact List.not_mem_cons_of_ne_of_not_mem
              (fun equal => different equal.symm) free
          · rw [← whole]
            rfl
        · rename_i line lines same
          rw [same] at whole
          refine ⟨unfinished, free, ?_⟩
          rw [← whole]
          simp

theorem completeLines_begin (bytes : List UInt8) :
    bytesOfLines (completeLines bytes) <+: bytes := by
  obtain ⟨unfinished, _, whole⟩ := bytesOfLines_completeLines bytes
  exact ⟨unfinished, whole⟩

/-- Whatever is appended to a file, its complete lines remain and only others
come after them. -/
theorem completeLines_grow {seen data : List UInt8} (grown : seen <+: data) :
    completeLines seen <+: completeLines data := by
  have inside := (completeLines_begin seen).trans grown
  obtain ⟨more, rfl⟩ := inside
  rw [completeLines_bytesOfLines_append
    fun _ member => newline_not_mem_of_completeLines member]
  exact List.prefix_append _ _

end LogPager
