import LogPager.Proofs.Record.Positions
import LogPager.Proofs.Source.DecodedLines
import LogPager.Proofs.Source.LineMaps
import LogPager.Source.Folder

/-!
# What a folder of logs serves

Every complete line of a file is one record, parsed from this line alone.
Whatever was read before, a read serves exactly the records of the lines that
the request selects among those complete at this moment.
-/

namespace LogPager

/-- The text of a line: its own bytes decoded, without the carriage returns at
the end. -/
def lineText (line : List UInt8) : String :=
  String.ofList (dropCarriageReturns (Text.Utf8.decodeLossy line))

/-- The records of all complete lines of a file. -/
def fileRecords (data : List UInt8) : List Record :=
  (completeLines data).mapIdx fun position line =>
    Record.parseLine position (lineText line)

/-- The items in a range of positions. -/
def LineRange.slice (range : LineRange) (items : List α) : List α :=
  (items.take range.stop).drop range.start

@[simp] theorem length_fileRecords (data : List UInt8) :
    (fileRecords data).length = (completeLines data).length :=
  List.length_mapIdx

theorem getElem?_fileRecords (data : List UInt8) (position : Nat) :
    (fileRecords data)[position]? =
      (completeLines data)[position]?.map fun line =>
        Record.parseLine position (lineText line) :=
  List.getElem?_mapIdx

theorem position_of_getElem?_fileRecords {data : List UInt8} {position : Nat}
    {record : Record} (found : (fileRecords data)[position]? = some record) :
    record.position = position := by
  rw [getElem?_fileRecords, Option.map_eq_some_iff] at found
  obtain ⟨line, _, rfl⟩ := found
  exact Record.position_parseLine position _

theorem line_of_mem_fileRecords {data : List UInt8} {record : Record}
    (member : record ∈ fileRecords data) :
    ∃ line, (completeLines data)[record.position]? = some line ∧
      record = Record.parseLine record.position (lineText line) := by
  obtain ⟨position, found⟩ := List.mem_iff_getElem?.mp member
  have same := position_of_getElem?_fileRecords found
  rw [getElem?_fileRecords, Option.map_eq_some_iff] at found
  obtain ⟨line, present, made⟩ := found
  rw [same]
  exact ⟨line, present, made.symm⟩

theorem fileRecords_grow {seen data : List UInt8} (grown : seen <+: data) :
    fileRecords seen <+: fileRecords data := by
  obtain ⟨more, same⟩ := completeLines_grow grown
  rw [fileRecords, fileRecords, ← same, List.mapIdx_append]
  exact List.prefix_append _ _

theorem recordsOfBytes_eq_slice (data : List UInt8) (range : LineRange) :
    recordsOfBytes (bytesOfLines (range.slice (completeLines data)))
      range.toList = range.slice (fileRecords data) := by
  have whole : ∀ line ∈ range.slice (completeLines data), newline ∉ line := by
    intro line member
    have complete : line ∈ completeLines data :=
      List.mem_of_mem_take (List.mem_of_mem_drop member)
    exact newline_not_mem_of_completeLines complete
  rw [recordsOfBytes, Text.lines_decodeLossy whole, List.zipWith_map_left]
  apply List.ext_getElem?
  intro index
  rw [List.getElem?_zipWith]
  simp only [LineRange.slice, LineRange.toList, List.getElem?_drop,
    List.getElem?_take, getElem?_fileRecords]
  by_cases inside : range.start + index < range.stop
  · have counted : index < range.stop - range.start := by omega
    rw [if_pos inside, if_pos inside]
    cases (completeLines data)[range.start + index]? with
    | none => simp
    | some line => simp [counted, lineText, Record.parseLine]
  · rw [if_neg inside, if_neg inside]

theorem LineRange.select_ordered (total : Nat) (edge : Edge)
    (anchor : Option Nat) (limit : Nat) :
    (select total edge anchor limit).1.start ≤
        (select total edge anchor limit).1.stop ∧
      (select total edge anchor limit).1.stop ≤ total := by
  cases edge with
  | older =>
      simp only [select]
      omega
  | newer =>
      simp only [select]
      omega

/-- A read serves the records of the selected lines, whatever part of the file
the map has seen, and leaves a map of the whole file. -/
theorem LineMap.Maps.readLines_eq {map : LineMap} {lines : List (List UInt8)}
    (maps : map.Maps lines) {data : List UInt8}
    (follows : bytesOfLines lines <+: data ∨
      data.length < (bytesOfLines lines).length) (name : String)
    {pick : Nat → LineRange × Bool}
    (ordered : ∀ total, (pick total).1.start ≤ (pick total).1.stop)
    (inside : ∀ total, (pick total).1.stop ≤ total) :
    readLines name map data pick =
      (.ok {
        source := some {
          name
          cursor := toString (bytesOfLines (completeLines data)).length }
        records :=
          (pick (completeLines data).length).1.slice (fileRecords data)
        boundary := (pick (completeLines data).length).2 }, map.refresh data) := by
  have refreshed := maps.refresh follows
  have span := refreshed.byteSpan?_eq (completeLines_begin data)
    (ordered (completeLines data).length) (inside (completeLines data).length)
  have rangeOrdered := ordered (completeLines data).length
  generalize picked : pick (completeLines data).length = choice
    at span rangeOrdered ⊢
  obtain ⟨range, boundary⟩ := choice
  have bytes : (data.drop (lineOffset (completeLines data) range.start)).take
      (lineOffset (completeLines data) range.stop -
        lineOffset (completeLines data) range.start) =
      bytesOfLines (range.slice (completeLines data)) :=
    take_drop_lineOffset (completeLines_begin data) rangeOrdered
  unfold readLines
  simp only [refreshed.counted, picked, span, bytes, refreshed.indexed,
    recordsOfBytes_eq_slice]

namespace LogFolder

/-- The line map of every file is one of lines with which its contents
begin. -/
def Follows (folder : LogFolder) (contents : String → List UInt8) : Prop :=
  ∀ name, ∃ lines, (folder.mapOf name).Maps lines ∧
    bytesOfLines lines <+: contents name

theorem mapOf_setMap (folder : LogFolder) (name other : String)
    (map : LineMap) :
    (folder.setMap name map).mapOf other =
      if other = name then map else folder.mapOf other := by
  by_cases same : other = name
  · simp [mapOf, setMap, same]
  · have kept : (folder.maps.filter fun entry => entry.1 != name).lookup other =
        folder.maps.lookup other := by
      induction folder.maps with
      | nil => rfl
      | cons entry entries ih =>
          by_cases removed : entry.1 = name
          · have different : (other == entry.1) = false := by
              simpa [removed] using same
            rw [List.filter_cons_of_neg (by simp [removed]), ih,
              List.lookup_cons, different]
          · rw [List.filter_cons_of_pos (by simp [removed]), List.lookup_cons,
              List.lookup_cons, ih]
    have different : (other == name) = false := by simpa using same
    rw [mapOf, setMap, List.lookup_cons, different, kept, if_neg same]
    rfl

theorem follows_of_new (path : String) (contents : String → List UInt8) :
    ({ path } : LogFolder).Follows contents := by
  intro name
  exact ⟨[], LineMap.empty_maps _, List.nil_prefix⟩

theorem Follows.grow {folder : LogFolder} {contents grown : String → List UInt8}
    (follows : folder.Follows contents)
    (grows : ∀ name, contents name <+: grown name) : folder.Follows grown := by
  intro name
  obtain ⟨lines, maps, begins⟩ := follows name
  exact ⟨lines, maps, begins.trans (grows name)⟩

/-- The folder after a file with the given data was read. -/
def afterRead (folder : LogFolder) (name : String) (data : List UInt8) :
    LogFolder :=
  folder.setMap name ((folder.mapOf name).refresh data)

theorem Follows.afterRead {folder : LogFolder}
    {contents : String → List UInt8} (follows : folder.Follows contents)
    (name : String) : (folder.afterRead name (contents name)).Follows contents := by
  intro other
  obtain ⟨lines, maps, begins⟩ := follows other
  rw [LogFolder.afterRead, mapOf_setMap]
  split
  · rename_i same
    cases same
    exact ⟨_, maps.refresh (.inl begins), completeLines_begin _⟩
  · exact ⟨lines, maps, begins⟩

/-- The line map of a file is one of lines that the file has kept, or that it
has become shorter than since. -/
def Knows (folder : LogFolder) (name : String) (data : List UInt8) : Prop :=
  ∃ lines, (folder.mapOf name).Maps lines ∧
    (bytesOfLines lines <+: data ∨ data.length < (bytesOfLines lines).length)

theorem Follows.knows {folder : LogFolder} {contents : String → List UInt8}
    (follows : folder.Follows contents) (name : String) :
    folder.Knows name (contents name) := by
  obtain ⟨lines, maps, begins⟩ := follows name
  exact ⟨lines, maps, .inl begins⟩

theorem Knows.mapOf_afterRead {folder : LogFolder} {name : String}
    {data : List UInt8} (knows : folder.Knows name data) :
    ((folder.afterRead name data).mapOf name).Maps (completeLines data) := by
  obtain ⟨lines, maps, follows⟩ := knows
  rw [LogFolder.afterRead, mapOf_setMap, if_pos rfl]
  exact maps.refresh follows

theorem Knows.afterRead {folder : LogFolder} {name : String}
    {data : List UInt8} (knows : folder.Knows name data) :
    (folder.afterRead name data).Knows name data :=
  ⟨completeLines data, knows.mapOf_afterRead, .inl (completeLines_begin data)⟩

theorem Knows.cutOff {folder : LogFolder} {name : String}
    {data rest : List UInt8} (knows : folder.Knows name data)
    (shorter : rest.length < (bytesOfLines (completeLines data)).length) :
    (folder.afterRead name data).Knows name rest :=
  ⟨completeLines data, knows.mapOf_afterRead, .inr shorter⟩

/-- A read of a file that is there serves the records of the selected lines. -/
theorem Knows.readContents_eq {folder : LogFolder} {name : String}
    {data : List UInt8} (knows : folder.Knows name data) (edge : Edge)
    (anchor : Option Nat) (limit : Nat) :
    folder.readContents name (some data)
        (fun total => LineRange.select total edge anchor limit) =
      (.ok {
        source := some {
          name
          cursor := toString (bytesOfLines (completeLines data)).length }
        records := (LineRange.select (fileRecords data).length edge anchor
          limit).1.slice (fileRecords data)
        boundary := (LineRange.select (fileRecords data).length edge anchor
          limit).2 }, folder.afterRead name data) := by
  obtain ⟨lines, maps, follows⟩ := knows
  have read := maps.readLines_eq follows name
    (fun total => (LineRange.select_ordered total edge anchor limit).1)
    (fun total => (LineRange.select_ordered total edge anchor limit).2)
  simp only [readContents, read, length_fileRecords]
  rfl

/-- A read serves the selected records and tags them with the file. -/
theorem Knows.serves {folder : LogFolder} {name : String} {data : List UInt8}
    (knows : folder.Knows name data) (edge : Edge) (anchor : Option Nat)
    (limit : Nat) :
    ∃ message : Message,
      folder.readContents name (some data)
          (fun total => LineRange.select total edge anchor limit) =
        (.ok message, folder.afterRead name data) ∧
      (∃ cursor, message.source = some { name, cursor }) ∧
      message.records = (LineRange.select (fileRecords data).length edge anchor
        limit).1.slice (fileRecords data) :=
  ⟨_, knows.readContents_eq edge anchor limit, ⟨_, rfl⟩, rfl⟩

theorem Follows.readContents_eq {folder : LogFolder}
    {contents : String → List UInt8} (follows : folder.Follows contents)
    (name : String) (edge : Edge) (anchor : Option Nat) (limit : Nat) :
    folder.readContents name (some (contents name))
        (fun total => LineRange.select total edge anchor limit) =
      (.ok {
        source := some {
          name
          cursor :=
            toString (bytesOfLines (completeLines (contents name))).length }
        records := (LineRange.select (fileRecords (contents name)).length edge
          anchor limit).1.slice (fileRecords (contents name))
        boundary := (LineRange.select (fileRecords (contents name)).length edge
          anchor limit).2 }, folder.afterRead name (contents name)) :=
  (follows.knows name).readContents_eq edge anchor limit

end LogFolder
end LogPager
