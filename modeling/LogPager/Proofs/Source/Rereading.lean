import LogPager.Proofs.Source.Serving

/-!
# Reading a file again

What a refresh leaves behind the lines seen has no complete line in it, whatever
the map was of.  So while a file stays as it is, a map that was refreshed with it
stays as well, and what was asked once is answered alike each time.
-/

namespace LogPager

namespace LineMap

theorem scan_append (map : LineMap) (offset : Nat) (first second : List UInt8) :
    map.scan offset (first ++ second) =
      (map.scan offset first).scan (offset + first.length) second := by
  induction first generalizing map offset with
  | nil => rfl
  | cons byte first ih =>
      rw [List.cons_append, scan, ih, scan, List.length_cons]
      congr 1
      omega

theorem scan_unfinished (map : LineMap) (offset : Nat) {bytes : List UInt8}
    (free : newline ∉ bytes) : map.scan offset bytes = map := by
  induction bytes generalizing offset with
  | nil => rfl
  | cons byte bytes ih =>
      obtain ⟨different, freeRest⟩ := List.ne_and_not_mem_of_not_mem_cons free
      rw [scan, if_neg different.symm, ih _ freeRest]

theorem indexedBytes_scan_lines {map : LineMap} {offset : Nat}
    (reached : map.indexedBytes = offset) {lines : List (List UInt8)}
    (whole : ∀ line ∈ lines, newline ∉ line) :
    (map.scan offset (bytesOfLines lines)).indexedBytes =
      offset + (bytesOfLines lines).length := by
  induction lines generalizing map offset with
  | nil => exact reached
  | cons line lines ih =>
      obtain ⟨free, wholeRest⟩ := List.forall_mem_cons.mp whole
      have onward : (map.addLine (offset + line.length + 1)).indexedBytes =
          offset + line.length + 1 := rfl
      rw [bytesOfLines_cons, scan_append, scan_unfinished _ _ free, scan,
        if_pos rfl, ih onward wholeRest, List.length_append, List.length_cons]
      omega

/-- A map is scanned on to the end of the last complete line, and the bytes
behind it change nothing. -/
theorem exists_unfinished_of_scan (map : LineMap) {offset : Nat}
    (reached : map.indexedBytes = offset) (bytes : List UInt8) :
    ∃ seen unfinished, bytes = seen ++ unfinished ∧ newline ∉ unfinished ∧
      (map.scan offset bytes).indexedBytes = offset + seen.length := by
  obtain ⟨unfinished, free, same⟩ := bytesOfLines_completeLines bytes
  refine ⟨_, unfinished, same.symm, free, ?_⟩
  rw [← same, scan_append, scan_unfinished _ _ free]
  simp only [same]
  exact indexedBytes_scan_lines reached fun _ => newline_not_mem_of_completeLines

theorem refresh_refresh (map : LineMap) (data : List UInt8) :
    (map.refresh data).refresh data = map.refresh data := by
  obtain ⟨start, within, refreshed⟩ : ∃ start : LineMap,
      start.indexedBytes ≤ data.length ∧ map.refresh data =
        start.scan start.indexedBytes (data.drop start.indexedBytes) := by
    by_cases shorter : data.length < map.indexedBytes
    · exact ⟨empty map.interval, Nat.zero_le _, by rw [refresh, if_pos shorter]⟩
    · exact ⟨map, Nat.le_of_not_lt shorter, by rw [refresh, if_neg shorter]⟩
  obtain ⟨seen, unfinished, parts, free, reached⟩ :=
    start.exists_unfinished_of_scan rfl (data.drop start.indexedBytes)
  rw [← refreshed] at reached
  have counted : data.length - start.indexedBytes =
      seen.length + unfinished.length := by
    rw [← List.length_drop, parts, List.length_append]
  have behind : data.drop (map.refresh data).indexedBytes = unfinished := by
    rw [reached, ← List.drop_drop, parts, List.drop_left]
  rw [refresh, if_neg (by omega), behind, scan_unfinished _ _ free]

end LineMap

theorem readLines_refresh (name : String) (map : LineMap) (data : List UInt8)
    (pick : Nat → LineRange × Bool) :
    readLines name (map.refresh data) data pick =
      readLines name map data pick := by
  rw [readLines, map.refresh_refresh]
  rfl

theorem snd_readLines (name : String) (map : LineMap) (data : List UInt8)
    (pick : Nat → LineRange × Bool) :
    (readLines name map data pick).2 = map.refresh data := by
  simp only [readLines]
  split <;> rfl

theorem source_of_readLines {name : String} {map : LineMap} {data : List UInt8}
    {pick : Nat → LineRange × Bool} {message : Message}
    (read : (readLines name map data pick).1 = .ok message) :
    ∃ cursor, message.source = some { name, cursor } := by
  simp only [readLines] at read
  split at read
  · cases read
  · cases read
    exact ⟨_, rfl⟩

namespace LogFolder

theorem setMap_setMap (folder : LogFolder) (name : String)
    (first second : LineMap) :
    (folder.setMap name first).setMap name second =
      folder.setMap name second := by
  simp [setMap, List.filter_filter]

theorem readContents_again (folder : LogFolder) (name : String)
    (contents : Option (List UInt8)) (pick : Nat → LineRange × Bool) :
    let next := (folder.readContents name contents pick).2
    next.readContents name contents pick =
      ((folder.readContents name contents pick).1, next) := by
  intro next
  cases contents with
  | none => rfl
  | some data =>
      have read : next = folder.afterRead name data := by
        show folder.setMap name (readLines name _ data pick).2 = _
        rw [snd_readLines]
        rfl
      have map : next.mapOf name = (folder.mapOf name).refresh data := by
        rw [read, LogFolder.afterRead, mapOf_setMap, if_pos rfl]
      show ((readLines name (next.mapOf name) data pick).1,
        next.setMap name (readLines name (next.mapOf name) data pick).2) = _
      rw [map, readLines_refresh, snd_readLines, read, LogFolder.afterRead,
        setMap_setMap]
      rfl

theorem contents?_readContents (folder : LogFolder) (name : String)
    (contents : Option (List UInt8)) (pick : Nat → LineRange × Bool)
    (files : FileSystem) :
    (folder.readContents name contents pick).2.contents? files =
      folder.contents? files := by
  cases contents <;> rfl

theorem source_of_readContents {folder : LogFolder} {name : String}
    {contents : Option (List UInt8)} {pick : Nat → LineRange × Bool}
    {message : Message}
    (read : (folder.readContents name contents pick).1 = .ok message) :
    ∃ cursor, message.source = some { name, cursor } := by
  cases contents with
  | none => cases read
  | some data =>
      simp only [readContents] at read
      exact source_of_readLines read

theorem fetch_eq (folder : LogFolder) (files : FileSystem) (request : Request) :
    folder.fetch files request false =
      folder.readContents request.file.name
        (folder.contents? files request.file.name) fun total =>
          LineRange.select total request.edge request.anchor request.limit :=
  rfl

/-- Requests for the same lines of one file are answered alike one after the
other while the file stays as it is. -/
theorem fetch_again (folder : LogFolder) (files : FileSystem)
    {request again : Request} (file : again.file.name = request.file.name)
    (edge : again.edge = request.edge) (anchor : again.anchor = request.anchor)
    (limit : again.limit = request.limit) :
    let next := (folder.fetch files request false).2
    next.fetch files again false =
      ((folder.fetch files request false).1, next) := by
  intro next
  have found : next.contents? files = folder.contents? files := by
    simp only [next, fetch_eq, contents?_readContents]
  rw [next.fetch_eq, file, edge, anchor, limit, found]
  simp only [next, fetch_eq]
  exact folder.readContents_again _ _ _

end LogFolder
end LogPager
