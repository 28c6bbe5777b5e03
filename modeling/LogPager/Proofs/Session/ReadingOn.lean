import LogPager.Proofs.Record.Positions
import LogPager.Proofs.Session.Appending
import LogPager.Proofs.Source.Rereading

/-!
# Catching up comes to an end

Every batch but the last brings a record that is newer than those held, and its
position is less than the number of lines in the map of the file.  Whatever this
map is, the first read brings it up to date and the others leave it so.  A
session with room for a record keeps the newest one, so that as many reads as
the map has lines, and one more, are enough.
-/

namespace LogPager

theorem position_mem_of_recordsOfBytes {bytes : List UInt8}
    {positions : List Nat} {record : Record}
    (member : record ∈ recordsOfBytes bytes positions) :
    record.position ∈ positions := by
  obtain ⟨index, found⟩ := List.getElem?_of_mem member
  obtain ⟨line, position, _, placed, rfl⟩ :=
    List.getElem?_zipWith_eq_some.mp found
  rw [Record.position_ofLine]
  exact List.mem_of_getElem? placed

theorem position_mem_of_readLines {name : String} {map : LineMap}
    {data : List UInt8} {pick : Nat → LineRange × Bool} {message : Message}
    (read : (readLines name map data pick).1 = .ok message) {record : Record}
    (member : record ∈ message.records) :
    record.position ∈ (pick (map.refresh data).lines).1.toList := by
  simp only [readLines] at read
  split at read
  · cases read
  · cases read
    exact position_mem_of_recordsOfBytes member

theorem LineRange.mem_select_newer {total limit line : Nat}
    {anchor : Option Nat}
    (selected : line ∈ (select total .newer anchor limit).1.toList) :
    anchor.elim 0 (· + 1) ≤ line ∧ line < total := by
  simp only [select, toList, List.mem_range'_1] at selected
  omega

namespace LiveTail

/-- A read brings lines of the map after the position, and leaves the map as it
is when it is up to date. -/
theorem readStill_of_ok {live : LiveTail} {contents : Option (List UInt8)}
    {folder next : LogFolder} {position : Option Nat} {message : Message}
    (read : live.readStill contents folder position = (.ok message, next)) :
    ∃ data, contents = some data ∧
      (next.mapOf live.file.name).refresh data =
        (folder.mapOf live.file.name).refresh data ∧
      ∀ record ∈ message.records, position.elim 0 (· + 1) ≤ record.position ∧
        record.position < ((folder.mapOf live.file.name).refresh data).lines := by
  cases contents with
  | none => cases read
  | some data =>
      have lines := congrArg Prod.fst read
      have stays := congrArg Prod.snd read
      simp only [readStill, LogFolder.readAfter, LogFolder.readContents]
        at lines stays
      refine ⟨data, rfl, ?_, ?_⟩
      · rw [← stays, snd_readLines, LogFolder.mapOf_setMap, if_pos rfl,
          LineMap.refresh_refresh]
      · intro record member
        exact LineRange.mem_select_newer (position_mem_of_readLines lines member)

end LiveTail

namespace Session

/-- How many of so many lines are beyond the newest held position. -/
def ahead (session : Session) (lines : Nat) : Nat :=
  lines - (session.edge? .newer).elim 0 (· + 1)

/-- A push of newer records of a file leaves fewer lines ahead. -/
theorem Pushed.ahead_lt {session after : Session} {message : Message}
    {movement : Movement}
    (pushed : session.Pushed message (.ok movement) after)
    (sound : session.Sound) (bounded : session.bound ≠ some 0)
    (live : session.view.reached.newer = true) {lines : Nat}
    (newer : ∀ record ∈ message.records,
      (session.edge? .newer).elim 0 (· + 1) ≤ record.position ∧
        record.position < lines)
    (several : message.records ≠ []) : after.ahead lines < session.ahead lines := by
  obtain ⟨gone, appends, _⟩ := pushed.appends sound live
  have all : session.beyondNewest message = message.records := by
    unfold beyondNewest
    cases edge : session.edge? .newer with
    | none => rfl
    | some newest =>
        rw [edge] at newer
        refine List.filter_eq_self.mpr fun record member => ?_
        exact decide_eq_true (newer record member).1
  have last : after.records.getLast? =
      some (message.records.getLast several) := by
    rw [appends.getLast?_eq bounded, all, List.getLast?_append,
      List.getLast?_eq_some_getLast several, Option.some_or]
  have edge : after.edge? .newer =
      some (message.records.getLast several).position := by
    rw [((pushed.moves sound).sound sound).edge?_eq]
    exact congrArg (Option.map (·.position)) last
  have placed := newer _ (List.getLast_mem several)
  rw [ahead, ahead, edge, Option.elim_some]
  omega

/-- Reads that are more than the lines ahead are enough, for every folder. -/
theorem CatchesUp.ne_none {live : LiveTail} (batched : 0 < live.batch)
    {contents : Option (List UInt8)} {reads : Nat} {folder next : LogFolder}
    {session after : Session} {total : Movement}
    {outcome : Option (Except SessionError Movement)}
    (catchesUp : session.CatchesUp (live.readStill contents) live.batch reads
      folder total outcome next after)
    (sound : session.Sound) (bounded : session.bound ≠ some 0)
    (enough : contents.elim 0 (fun data => session.ahead
      ((folder.mapOf live.file.name).refresh data).lines) < reads) :
    outcome ≠ none := by
  induction catchesUp with
  | exhausted live => exact (Nat.not_lt_zero _ enough).elim
  | away | unread | refused | finished => exact Option.some_ne_none _
  | @onward reads folder next _ session later _ _ movement message _ live read
      pushed full moved rest ih =>
      have step := session.pushed message
      rw [pushed] at step
      obtain ⟨data, rfl, stays, newer⟩ := LiveTail.readStill_of_ok read
      have several : message.records ≠ [] :=
        List.ne_nil_of_length_pos (Nat.lt_of_lt_of_le batched full)
      have fewer : later.ahead _ < session.ahead _ :=
        step.ahead_lt sound bounded live newer several
      apply ih ((step.moves sound).sound sound) (step.bound_eq ▸ bounded)
      rw [Option.elim_some] at enough ⊢
      rw [stays]
      omega

end Session

/-- Catching up of a session with room for a record comes to an end, whatever
the file has become and whatever its map was. -/
theorem LiveTail.isSome_catchUp {live : LiveTail} (batched : 0 < live.batch)
    {session : Session} (sound : session.Sound)
    (bounded : session.bound ≠ some 0) (contents : Option (List UInt8))
    (folder : LogFolder) :
    (live.catchUp contents folder session).1.isSome := by
  have ends := Session.catchesUp (live.readStill contents) live.batch
    (live.readsFor contents folder) folder session {}
  refine Option.isSome_iff_ne_none.mpr (ends.ne_none batched sound bounded ?_)
  unfold readsFor
  cases contents with
  | none => exact Nat.zero_lt_one
  | some data => exact Nat.lt_succ_of_le (Nat.sub_le _ _)

theorem LiveTail.isSome_poll {live : LiveTail} (batched : 0 < live.batch)
    {session : Session} (sound : session.Sound)
    (bounded : session.bound ≠ some 0) (events : List FileEvent)
    (contents : Option (List UInt8)) (folder : LogFolder) :
    (live.poll events contents folder session).1.isSome := by
  unfold poll
  split
  · exact isSome_catchUp batched sound bounded contents folder
  · rfl

end LogPager
