import LogPager.Proofs.Reader.Faithful
import LogPager.Proofs.Session.Shifts
import LogPager.Proofs.Window.Newest

/-!
# Catching up batch by batch

While its file stays as it is, catching up reads the lines after the newest one
held in batches.  Every batch is pushed on to the window, whatever the bound
takes from its other end, and the first batch that is not full is the last.  So
the number of reads follows from the number of missing lines, and the window
ends with the last line of the file.
-/

namespace LogPager

theorem Movement.isNoop_eq_false_of_added {movement : Movement}
    (added : 0 < movement.added.newer) : movement.isNoop = false := by
  simp [isNoop, changed, PerEdge.get, added]

theorem Window.Sound.exists_enforceBound_eq_drop {window : Window}
    (sound : window.Sound) (live : window.reached.newer = true)
    {bound : Option Nat} (bounded : bound ≠ some 0) (grown : Edge)
    (inFlight : Edge → Bool) (movement : Movement) :
    ∃ gone, (gone = 0 ∨ gone < window.records.length) ∧
      (window.enforceBound bound grown inFlight movement).2.records =
        window.records.drop gone := by
  rcases sound.enforceBound bound grown inFlight movement with
    ⟨unchanged, _⟩ | ⟨most, after, given, exceeds, _, step, loses⟩
  · exact ⟨0, .inl rfl, by rw [unchanged, List.drop_zero]⟩
  · have room : most ≠ 0 := fun none => bounded (none ▸ given)
    refine ⟨window.records.length - most, .inr (by omega), ?_⟩
    rw [step, loses.records, Window.yieldingEdge, live, if_pos rfl]
    rfl

namespace Session

/-- The open file is followed at its live end and shows the records of a range
of its lines, of none only at the start of the file. -/
structure TailsLines (session : Session) (name : String) (data : List UInt8)
    (range : LineRange) : Prop where
  sound : session.Sound
  bounded : session.bound ≠ some 0
  opened : ∃ log, session.opened = some log ∧ log.file.name = name ∧
    log.window.reached.newer = true
  records : session.records = range.slice (fileRecords data)
  ordered : range.start ≤ range.stop
  inside : range.stop ≤ (fileRecords data).length
  holding : range.start < range.stop ∨ range.stop = 0

namespace TailsLines

variable {session : Session} {name : String} {data : List UInt8}
  {range : LineRange}

theorem live (tails : session.TailsLines name data range) :
    session.view.reached.newer = true := by
  obtain ⟨log, opened, _, live⟩ := tails.opened
  rw [view_of_opened opened]
  exact live

theorem edge?_newer (tails : session.TailsLines name data range) :
    session.edge? .newer =
      if range.stop = 0 then none else some (range.stop - 1) := by
  obtain ⟨log, opened, _⟩ := tails.opened
  have edge : session.edge? .newer =
      (Edge.newer.item? (range.slice (fileRecords data))).map (·.position) := by
    rw [← tails.records, tails.sound.records_of_opened opened,
      ← (tails.sound log opened).edge?_eq, Session.edge?, opened]
    rfl
  rcases tails.holding with several | start
  · rw [edge, LineRange.edge_slice tails.inside several, LineRange.outermost,
      if_neg (Nat.ne_zero_of_lt several)]
  · rw [edge, LineRange.slice_eq_nil (start ▸ Nat.zero_le _), if_pos start]
    rfl

theorem select_eq (tails : session.TailsLines name data range) (batch : Nat) :
    (LineRange.select (fileRecords data).length .newer (session.edge? .newer)
      batch).1 =
        { start := range.stop
          stop := min (range.stop + batch) (fileRecords data).length } := by
  have inside := tails.inside
  rw [tails.edge?_newer]
  split
  · rename_i start
    simp [LineRange.select, start]
  · rename_i several
    have next : range.stop - 1 + 1 = range.stop :=
      Nat.sub_add_cancel (Nat.pos_of_ne_zero several)
    simp only [LineRange.select, Option.elim_some, next,
      Nat.min_eq_left inside]

theorem merges_lines (tails : session.TailsLines name data range) {stop : Nat}
    (ordered : range.stop ≤ stop) (inside : stop ≤ (fileRecords data).length)
    {records : List Record}
    (read : records =
      LineRange.slice { start := range.stop, stop } (fileRecords data)) :
    ∃ log movement window, session.opened = some log ∧
      log.file.name = name ∧ log.window.reached.newer = true ∧
      (Page.ofRecords log.file.name records >>= log.window.mergeLive) =
        .ok (movement, window) ∧
      window.Sound ∧ window.reached = log.window.reached ∧
      movement.added.newer = stop - range.stop ∧
      window.records =
        LineRange.slice { start := range.start, stop } (fileRecords data) := by
  obtain ⟨log, opened, named, live⟩ := tails.opened
  have sound := tails.sound log opened
  obtain ⟨page, paged⟩ : ∃ page, Page.ofRecords log.file.name records = .ok page :=
    ⟨_, Page.ofRecords_of_ordered _ (read ▸ LineRange.ordered_slice inside)⟩
  have brought := (Page.records_of_ofRecords paged).trans read
  have next : ∀ position, log.window.edge? .newer = some position →
      LineRange.Adjoins { start := range.stop, stop } .newer position := by
    intro position newest
    have edge := tails.edge?_newer
    rw [Session.edge?, opened, Option.bind_some, newest] at edge
    split at edge
    · cases edge
    · rename_i several
      cases edge
      exact (Nat.sub_add_cancel (Nat.pos_of_ne_zero several)).symm
  have abuts := Window.abuts_of_adjoins brought inside next
  obtain ⟨⟨movement, window⟩, merged⟩ := sound.mergeLive_of_abuts page abuts
  have takes := sound.mergeLive live merged
  refine ⟨log, movement, window, opened, named, live, ?_, takes.sound,
    takes.reached, ?_, ?_⟩
  · rw [paged]
    exact merged
  · rw [takes.movement, Page.beyond_eq_records abuts, brought,
      LineRange.length_slice inside]
    exact Nat.zero_add _
  · rw [takes.records, Page.beyond_eq_records abuts, brought,
      ← tails.sound.records_of_opened opened, tails.records]
    exact LineRange.slice_append tails.ordered ordered rfl inside

/-- The lines after the last one held are appended when they are pushed.  The
bound takes other records away. -/
theorem push (tails : session.TailsLines name data range) {stop : Nat}
    (ordered : range.stop ≤ stop) (inside : stop ≤ (fileRecords data).length)
    {message : Message}
    (tagged : ∃ cursor, message.source = some { name, cursor })
    (read : message.records =
      LineRange.slice { start := range.stop, stop } (fileRecords data)) :
    ∃ movement after start,
      session.push message = (.ok movement, after) ∧
      movement.added.newer = stop - range.stop ∧
      after.TailsLines name data { start, stop } := by
  obtain ⟨log, movement, window, opened, named, live, merged, sound, reached,
    added, records⟩ := tails.merges_lines ordered inside read
  have same : ∀ source, message.source = some source →
      source.sameFile log.file = true := by
    obtain ⟨cursor, tagged⟩ := tagged
    intro source given
    cases tagged.symm.trans given
    exact FileRef.sameFile_iff.mpr named.symm
  have step : session.push message = _ := push_eq_of_live opened same live
  simp only [merged] at step
  have left := session.opened_settleWindow
    { file := { log.file with
        cursor := message.source.elim log.file.cursor (·.cursor) }
      window } .newer movement
  have afterSound := tails.sound.perform (.push message)
  rw [perform, step] at afterSound
  have afterLive : window.reached.newer = true := by
    rw [reached]
    exact live
  obtain ⟨gone, remain, dropped⟩ := sound.exists_enforceBound_eq_drop
    afterLive tails.bounded .newer session.slots.isInFlight movement
  have rangeOrdered := tails.ordered
  have holding := tails.holding
  have kept : gone = 0 ∨ gone < stop - range.start := by
    rw [records, LineRange.length_slice inside] at remain
    exact remain
  refine ⟨_, _, range.start + gone, step, ?_, afterSound, tails.bounded,
    ⟨_, left, named, ?_⟩, ?_, ?_, inside, ?_⟩
  · rw [fst_settleWindow, sound.added_enforceBound, added]
  · rw [sound.reached_enforceBound]
    exact afterLive
  · rw [afterSound.records_of_opened left, dropped, records,
      LineRange.drop_slice]
  · show range.start + gone ≤ stop
    omega
  · show range.start + gone < stop ∨ stop = 0
    omega

/-- One read: the next lines of the file are appended, and catching up goes on
if they fill a batch. -/
theorem catchUp_succ (tails : session.TailsLines name data range)
    {tail : LiveTail} (named : tail.file.name = name) (batched : 0 < tail.batch)
    {folder : LogFolder} (knows : folder.Knows name data) :
    let stop := min (range.stop + tail.batch) (fileRecords data).length
    ∃ movement next after start,
      movement.added.newer = stop - range.stop ∧
      next.Knows name data ∧ after.TailsLines name data { start, stop } ∧
      ∀ reads total,
        session.catchUp (tail.readStill (some data)) tail.batch (reads + 1)
            folder total =
          if range.stop + tail.batch ≤ (fileRecords data).length then
            after.catchUp (tail.readStill (some data)) tail.batch reads next
              (total.combine movement)
          else (some (.ok (total.combine movement)), next, after) := by
  intro stop
  have within := tails.inside
  have ordered : range.stop ≤ stop := by omega
  have inside : stop ≤ (fileRecords data).length := Nat.min_le_right _ _
  obtain ⟨message, read, tagged, records⟩ :=
    knows.serves .newer (session.edge? .newer) tail.batch
  rw [tails.select_eq tail.batch] at records
  obtain ⟨movement, after, start, pushed, added, afterTails⟩ :=
    tails.push ordered inside tagged records
  have count : message.records.length = stop - range.stop := by
    rw [records, LineRange.length_slice inside]
  refine ⟨movement, _, after, start, added, knows.afterRead, afterTails, ?_⟩
  intro reads total
  have served : tail.readStill (some data) folder (session.edge? .newer) =
      (.ok message, folder.afterRead name data) := by
    rw [LiveTail.readStill, LogFolder.readAfter, named]
    exact read
  by_cases full : range.stop + tail.batch ≤ (fileRecords data).length
  · have enough : ¬message.records.length < tail.batch := by omega
    have moved : movement.isNoop = false :=
      Movement.isNoop_eq_false_of_added (by omega)
    simp only [catchUp, tails.live, served, pushed, enough, moved, full,
      Bool.not_true, Bool.false_eq_true, if_false, if_true, decide_false,
      Bool.or_self]
  · have short : message.records.length < tail.batch := by omega
    simp only [catchUp, tails.live, served, pushed, short, full,
      Bool.not_true, Bool.false_eq_true, if_false, if_true, decide_true,
      Bool.true_or]

theorem catchUp_zero (tails : session.TailsLines name data range)
    (readAfter : σ → Option Nat → Except ReadError Message × σ) (batch : Nat)
    (source : σ) (total : Movement) :
    (session.catchUp readAfter batch 0 source total).1 = none := by
  simp [catchUp, tails.live]

/-- Missing lines that fill some batches, and not one more, are appended by a
read for each of these and a last one. -/
theorem catchUp_eq (tails : session.TailsLines name data range)
    {tail : LiveTail} (named : tail.file.name = name) (batched : 0 < tail.batch)
    {folder : LogFolder} (knows : folder.Knows name data) {full : Nat}
    (filled : full * tail.batch ≤ (fileRecords data).length - range.stop)
    (rest : (fileRecords data).length - range.stop <
      full * tail.batch + tail.batch) :
    ∃ movement next after start,
      movement.added.newer = (fileRecords data).length - range.stop ∧
      after.TailsLines name data { start, stop := (fileRecords data).length } ∧
      ∀ reads total,
        (reads ≤ full → (session.catchUp (tail.readStill (some data)) tail.batch
          reads folder total).1 = none) ∧
        (full < reads → session.catchUp (tail.readStill (some data)) tail.batch
          reads folder total =
            (some (.ok (total.combine movement)), next, after)) := by
  induction full generalizing session folder range with
  | zero =>
      have within := tails.inside
      obtain ⟨movement, next, after, start, added, _, afterTails, step⟩ :=
        tails.catchUp_succ named batched knows
      have last : min (range.stop + tail.batch) (fileRecords data).length =
          (fileRecords data).length := by omega
      rw [last] at added afterTails
      refine ⟨movement, next, after, start, added, afterTails, ?_⟩
      intro reads total
      cases reads with
      | zero => exact ⟨fun _ => tails.catchUp_zero _ _ _ _, nofun⟩
      | succ reads =>
          refine ⟨nofun, fun _ => ?_⟩
          rw [step, if_neg (by omega)]
  | succ full ih =>
      rw [Nat.succ_mul] at filled rest
      obtain ⟨first, between, later, _, addedFirst, knows, laterTails, step⟩ :=
        tails.catchUp_succ named batched knows
      have onward : range.stop + tail.batch ≤ (fileRecords data).length := by
        omega
      rw [Nat.min_eq_left onward] at addedFirst laterTails
      obtain ⟨others, next, after, start, added, afterTails, run⟩ :=
        ih laterTails knows (by dsimp only; omega) (by dsimp only; omega)
      refine ⟨first.combine others, next, after, start, ?_, afterTails, ?_⟩
      · have added : others.added.newer =
            (fileRecords data).length - (range.stop + tail.batch) := added
        show first.added.newer + others.added.newer = _
        omega
      · intro reads total
        cases reads with
        | zero => exact ⟨fun _ => tails.catchUp_zero _ _ _ _, nofun⟩
        | succ reads =>
            rw [step, if_pos onward, ← Movement.combine_assoc]
            obtain ⟨early, ends⟩ := run reads (total.combine first)
            exact ⟨fun few => early (Nat.le_of_succ_le_succ few),
              fun more => ends (Nat.lt_of_succ_lt_succ more)⟩

end TailsLines

/-- Let a session show the lines of a file from one up to another and follow its
live end, and let the folder know the file: the lines in its map are still the
first ones of the file, or the file is shorter than they are.  Catching up with
the file, as it is, takes a read for every batch that the missing lines fill and
one more.  They are appended, and what the session shows then are the last lines
of the file, none only if there are none. -/
theorem Arises.catchUp_appends_missing {fetchLimit : Nat} {bound : Option Nat}
    {session : Session} (arises : Arises fetchLimit bound session)
    (bounded : bound ≠ some 0) {log : OpenLog}
    (opened : session.opened = some log)
    (live : log.window.reached.newer = true) {data : List UInt8}
    {range : LineRange} (records : session.records =
      range.slice (fileRecords data))
    (inside : range.stop ≤ (completeLines data).length)
    (holding : range.start < range.stop ∨ range.start = 0 ∧ range.stop = 0)
    {tail : LiveTail} (named : tail.file.name = log.file.name)
    (batched : 0 < tail.batch) {folder : LogFolder}
    (knows : folder.Knows log.file.name data) :
    let missing := (completeLines data).length - range.stop
    let catchUp (reads : Nat) := session.catchUp (tail.readStill (some data))
      tail.batch reads folder {}
    ∃ movement next after first,
      (∀ reads, reads ≤ missing / tail.batch → (catchUp reads).1 = none) ∧
      (∀ reads, missing / tail.batch < reads →
        catchUp reads = (some (.ok movement), next, after)) ∧
      tail.catchUp (some data) folder session =
        (some (.ok movement), next, after) ∧
      movement.added.newer = missing ∧
      after.records = (fileRecords data).drop first ∧
      (first < (completeLines data).length ∨ (completeLines data).length = 0) := by
  intro missing catchUp
  have tails : session.TailsLines log.file.name data range := by
    refine ⟨arises.sound, ?_, ⟨log, opened, rfl, live⟩, records, by omega, ?_, ?_⟩
    · rw [arises.bound_eq]
      exact bounded
    · rw [length_fileRecords]
      exact inside
    · exact holding.imp_right And.right
  have filled : missing / tail.batch * tail.batch ≤
      (fileRecords data).length - range.stop := by
    rw [length_fileRecords]
    exact Nat.div_mul_le_self _ _
  have rest : (fileRecords data).length - range.stop <
      missing / tail.batch * tail.batch + tail.batch := by
    rw [length_fileRecords]
    exact Nat.lt_div_mul_add batched
  obtain ⟨movement, next, after, start, added, afterTails, run⟩ :=
    tails.catchUp_eq named batched knows filled rest
  have ends : ∀ reads, missing / tail.batch < reads →
      catchUp reads = (some (.ok movement), next, after) := by
    intro reads more
    have caught := (run reads {}).2 more
    rw [Movement.empty_combine] at caught
    exact caught
  have enough : missing / tail.batch <
      tail.readsFor (some data) folder := by
    have counted := knows.mapOf_afterRead.counted
    rw [LogFolder.afterRead, LogFolder.mapOf_setMap, if_pos rfl] at counted
    have batches := Nat.div_le_self missing tail.batch
    rw [LiveTail.readsFor, named, Option.elim_some, counted]
    omega
  refine ⟨movement, next, after, start, fun reads few => (run reads {}).1 few,
    ends, ends _ enough, ?_, ?_, ?_⟩
  · rw [added, length_fileRecords]
  · rw [afterTails.records, LineRange.slice, List.take_length]
  · rw [← length_fileRecords]
    exact afterTails.holding

/-- Four lines of which a session that holds one record at most has read the
first, when it was the only one. -/
private def fourLines : List UInt8 :=
  [0x78, 0x0A, 0x79, 0x0A, 0x7A, 0x0A, 0x78, 0x0A]

private def holdingFirst : Session :=
  (new 2 (some 1)).run [
    .openFile { name := "a" },
    .deliver {
      request := { firstRequest with file := { name := "a" } }
      result := .ok {
        source := some { name := "a", cursor := "2" }
        records := fileRecords [0x78, 0x0A]
        boundary := true } }]

/-- Two of the three missing lines fill a batch. -/
theorem catchUp_appends_three_lines :
    let tail := LiveTail.new { name := "a" } 2
    let catchUp (reads : Nat) := holdingFirst.catchUp
      (tail.readStill (some fourLines)) tail.batch reads { path := "/" } {}
    ∃ movement next after,
      (catchUp 1).1 = none ∧ catchUp 2 = (some (.ok movement), next, after) ∧
      movement.added.newer = 3 ∧ after.records ≠ [] := by
  intro tail catchUp
  have opened : holdingFirst.opened.map (·.file.name) = some "a" := by
    decide +kernel
  obtain ⟨log, opened, named⟩ := Option.map_eq_some_iff.mp opened
  have live : log.window.reached.newer = true := by
    have view : holdingFirst.view.reached.newer = true := by decide +kernel
    rw [view_of_opened opened] at view
    exact view
  have knows : ({ path := "/" } : LogFolder).Knows log.file.name fourLines :=
    (LogFolder.follows_of_new "/" fun _ => fourLines).knows log.file.name
  have records : holdingFirst.records =
      LineRange.slice { start := 0, stop := 1 } (fileRecords fourLines) := by
    decide +kernel
  have lines : (completeLines fourLines).length = 4 := by decide +kernel
  have arises : Arises 2 (some 1) holdingFirst := ⟨_, rfl⟩
  have same : tail.file.name = log.file.name := named.symm
  have inside : 1 ≤ (completeLines fourLines).length := by
    rw [lines]
    decide
  have caught := arises.catchUp_appends_missing (by decide) opened live records
    inside (.inl Nat.zero_lt_one) same (by decide) knows
  rw [lines] at caught
  obtain ⟨movement, next, after, first, unfinished, finished, _, added, shows,
    some⟩ := caught
  refine ⟨movement, next, after, unfinished 1 (by decide),
    finished 2 (by decide), added, ?_⟩
  rw [shows, Ne, List.drop_eq_nil_iff, length_fileRecords, lines]
  omega

/-- Three lines in the bytes that four lines take later. -/
private def longLine : List UInt8 :=
  [0x78, 0x0A, 0x79, 0x0A, 0x7A, 0x7A, 0x7A, 0x0A]

/-- The first two lines are held, the second of which was read first. -/
private def holdingTwo : Session :=
  (new 1 none).run [
    .openFile { name := "a" },
    .deliver {
      request := { firstRequest with file := { name := "a" }, limit := 1 }
      result := .ok {
        source := some { name := "a", cursor := "4" }
        records := (fileRecords [0x78, 0x0A, 0x79, 0x0A]).drop 1 } },
    .requestMore .older,
    .deliver {
      request :=
        { firstRequest with
          id := 2, file := { name := "a" }, anchor := some 1, limit := 1 }
      result := .ok {
        source := some { name := "a", cursor := "8" }
        records := (fileRecords longLine).take 1
        boundary := true } }]

/-- The folder has read three lines, and the file is written anew with four in
as many bytes.  Its map stays as it was, and of the two lines that are missing
one is appended. -/
theorem catchUp_misses_rewritten_line :
    let tail := LiveTail.new { name := "a" } 2
    let folder := (tail.readStill (some longLine) { path := "/" } none).2
    let (result, _, after) :=
      tail.catchUp (some fourLines) folder holdingTwo
    holdingTwo.view.reached.newer = true ∧
      holdingTwo.records =
        LineRange.slice { start := 0, stop := 2 } (fileRecords fourLines) ∧
      (completeLines fourLines).length = 4 ∧
      result = some (.ok { added := ⟨0, 1⟩ }) ∧
      after.records = (fileRecords fourLines).take 3 := by
  decide +kernel

end Session
end LogPager
