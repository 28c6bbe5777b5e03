import LogPager.Proofs.Source.Serving
import Mathlib.Data.List.Chain
import Mathlib.Data.List.Induction

/-!
# Reads over the history of a file

A file that is read again and again either keeps its complete lines, so that
more may follow, or becomes shorter than they were and may then hold anything.
Whatever was asked of a folder before, every reply is then the plain reading of
the selected lines, each of them decoded and parsed alone.
-/

namespace LogPager

/-- What is asked of a folder of logs. -/
inductive FolderCall where
  | fetch (request : Request) (cancelled : Bool)
  | readAfter (name : String) (position : Option Nat) (limit : Nat)

namespace FolderCall

/-- The file that is asked for. -/
def file : FolderCall → String
  | .fetch request _ => request.file.name
  | .readAfter name _ _ => name

/-- A call that was cancelled reads nothing. -/
def cancelled : FolderCall → Bool
  | .fetch _ cancelled => cancelled
  | .readAfter .. => false

/-- The lines that are asked for, of as many as there are. -/
def selects (call : FolderCall) (total : Nat) : LineRange × Bool :=
  match call with
  | .fetch request _ =>
      LineRange.select total request.edge request.anchor request.limit
  | .readAfter _ position limit => LineRange.select total .newer position limit

theorem selects_ordered (call : FolderCall) (total : Nat) :
    (call.selects total).1.start ≤ (call.selects total).1.stop ∧
      (call.selects total).1.stop ≤ total := by
  cases call with
  | fetch request cancelled => exact LineRange.select_ordered ..
  | readAfter name position limit => exact LineRange.select_ordered ..

/-- The contents of a file that a call reads. -/
def reads? (path : String) (files : FileSystem) (name : String)
    (call : FolderCall) : Option (List UInt8) :=
  if call.cancelled || call.file != name then none
  else ({ path } : LogFolder).contents? files name

end FolderCall

theorem LineRange.map_some_slice {range : LineRange} {items : List α}
    (inside : range.stop ≤ items.length) :
    (range.slice items).map some = range.toList.map fun position =>
      items[position]? := by
  apply List.ext_getElem?
  intro index
  simp only [slice, toList, List.getElem?_map, List.getElem?_drop,
    List.getElem?_take]
  by_cases within : index < range.stop - range.start
  · have before : range.start + index < range.stop := by omega
    have present : range.start + index < items.length := by omega
    simp [within, before, List.getElem?_eq_getElem present]
  · have beyond : ¬range.start + index < range.stop := by omega
    simp [within, beyond]

/-- The complete lines seen before are kept, or the file is shorter than
them. -/
def Continues (seen data : List UInt8) : Prop :=
  bytesOfLines (completeLines seen) <+: data ∨
    data.length < (bytesOfLines (completeLines seen)).length

/-- The contents of a file at each of the calls that read it. -/
def readsOf (path name : String) (history : List (FileSystem × FolderCall)) :
    List (List UInt8) :=
  history.filterMap fun made => made.2.reads? path made.1 name

namespace LogFolder

/-- A call of a folder with the files as they are. -/
def call (folder : LogFolder) (files : FileSystem) :
    FolderCall → Except ReadError Message × LogFolder
  | .fetch request cancelled => folder.fetch files request cancelled
  | .readAfter name position limit =>
      folder.readAfter (folder.contents? files name) name position limit

/-- The folder after some calls, each with the files as they were then. -/
def afterCalls (folder : LogFolder)
    (history : List (FileSystem × FolderCall)) : LogFolder :=
  history.foldl (fun folder made => (folder.call made.1 made.2).2) folder

theorem call_eq (folder : LogFolder) (files : FileSystem) (call : FolderCall) :
    folder.call files call =
      if call.cancelled then (.error .cancelled, folder)
      else folder.readContents call.file (folder.contents? files call.file)
        call.selects := by
  cases call with
  | fetch request cancelled => rfl
  | readAfter name position limit => rfl

theorem path_call (folder : LogFolder) (files : FileSystem) (call : FolderCall) :
    (folder.call files call).2.path = folder.path := by
  rw [call_eq]
  split
  · rfl
  · unfold readContents
    split <;> rfl

theorem mapOf_call_of_unread {folder : LogFolder} {files : FileSystem}
    {call : FolderCall} {name : String}
    (unread : call.reads? folder.path files name = none) :
    (folder.call files call).2.mapOf name = folder.mapOf name := by
  rw [call_eq]
  split
  · rfl
  · rename_i wanted
    unfold readContents
    split
    · rfl
    · rename_i data found
      have other : ¬name = call.file := by
        rintro rfl
        simp only [FolderCall.reads?, wanted, Bool.false_or, bne_self_eq_false,
          if_neg Bool.false_ne_true] at unread
        exact absurd (found.symm.trans unread) (by simp)
      rw [mapOf_setMap, if_neg other]

/-- A call that reads a file serves the lines it selects among those complete
now, whatever lines were seen before. -/
theorem call_of_read {folder : LogFolder} {files : FileSystem}
    {call : FolderCall} {name : String} {seen data : List UInt8}
    (maps : (folder.mapOf name).Maps (completeLines seen))
    (continues : Continues seen data)
    (read : call.reads? folder.path files name = some data) :
    folder.call files call =
      (.ok {
        source := some {
          name
          cursor := toString (bytesOfLines (completeLines data)).length }
        records :=
          (call.selects (completeLines data).length).1.slice (fileRecords data)
        boundary := (call.selects (completeLines data).length).2 },
        folder.afterRead name data) := by
  unfold FolderCall.reads? at read
  split at read
  · cases read
  · rename_i asked
    obtain ⟨wanted, rfl⟩ : call.cancelled = false ∧ call.file = name := by
      simpa using asked
    have found : folder.contents? files call.file = some data := read
    rw [call_eq, wanted, if_neg Bool.false_ne_true, found]
    simp only [readContents]
    rw [maps.readLines_eq continues call.file
      (fun total => (call.selects_ordered total).1)
      (fun total => (call.selects_ordered total).2)]
    rfl

theorem path_afterCalls (folder : LogFolder)
    (history : List (FileSystem × FolderCall)) :
    (folder.afterCalls history).path = folder.path := by
  induction history generalizing folder with
  | nil => rfl
  | cons made rest ih => exact (ih _).trans (path_call ..)

theorem readsOf_append (path name : String)
    (history : List (FileSystem × FolderCall)) (files : FileSystem)
    (call : FolderCall) :
    readsOf path name (history ++ [(files, call)]) =
      readsOf path name history ++ (call.reads? path files name).toList := by
  unfold readsOf
  rw [List.filterMap_append]
  cases read : call.reads? path files name <;> simp [read]

theorem continues_of_isChain {reads : List (List UInt8)} {data : List UInt8}
    (continues : (reads ++ [data]).IsChain Continues) :
    Continues (reads.getLast?.getD []) data := by
  cases last : reads.getLast? with
  | none => exact .inl List.nil_prefix
  | some seen =>
      exact (List.isChain_append.mp continues).2.2 seen last data rfl

/-- The map of a file is one of the complete lines it had when it was last
read. -/
theorem maps_afterCalls (path name : String)
    (history : List (FileSystem × FolderCall))
    (continues : (readsOf path name history).IsChain Continues) :
    ((afterCalls { path } history).mapOf name).Maps
      (completeLines ((readsOf path name history).getLast?.getD [])) := by
  induction history using List.reverseRecOn with
  | nil => exact LineMap.empty_maps _
  | append_singleton history made ih =>
      obtain ⟨files, call⟩ := made
      have same : (afterCalls { path } history).path = path :=
        path_afterCalls ..
      rw [readsOf_append] at continues
      have before := ih (List.isChain_append.mp continues).1
      rw [afterCalls, List.foldl_append, readsOf_append]
      change (((afterCalls { path } history).call files call).2.mapOf name).Maps _
      cases read : call.reads? path files name with
      | none =>
          rw [← same] at read
          rw [mapOf_call_of_unread read]
          simpa using before
      | some data =>
          rw [read] at continues
          have onward := continues_of_isChain continues
          rw [← same] at read
          rw [call_of_read before onward read]
          simpa [afterRead, mapOf_setMap] using before.refresh onward

/-- Let a file keep its complete lines or become shorter than they were from
each read of it to the next.  Whatever a new folder was asked before, a read
then serves one record for each selected position, parsed from the line there
alone, and tells the bytes of all complete lines. -/
theorem reply_after_history (path name : String)
    (history : List (FileSystem × FolderCall)) (files : FileSystem)
    (call : FolderCall) {data : List UInt8}
    (read : call.reads? path files name = some data)
    (continues :
      (readsOf path name (history ++ [(files, call)])).IsChain Continues) :
    ∃ records,
      ((afterCalls { path } history).call files call).1 = .ok {
        source := some {
          name
          cursor := toString (bytesOfLines (completeLines data)).length }
        records
        boundary := (call.selects (completeLines data).length).2 } ∧
      records.map some =
        (call.selects (completeLines data).length).1.toList.map fun position =>
          (completeLines data)[position]?.map fun line =>
            Record.parseLine position (lineText line) := by
  rw [readsOf_append, read] at continues
  have maps := maps_afterCalls path name history
    (List.isChain_append.mp continues).1
  have same : (afterCalls { path } history).path = path := path_afterCalls ..
  rw [← same] at read
  refine ⟨_, congrArg Prod.fst
    (call_of_read maps (continues_of_isChain continues) read), ?_⟩
  rw [LineRange.map_some_slice]
  · simp only [getElem?_fileRecords]
  · rw [length_fileRecords]
    exact (call.selects_ordered _).2

/-- A folder with one file. -/
def oneFile (bytes : List UInt8) : FileSystem :=
  { root := some (.folder [([0x61], .file bytes)]) }

theorem contents?_oneFile (bytes : List UInt8) :
    ({ path := "/" } : LogFolder).contents? (oneFile bytes) "a" =
      some bytes := by
  have plain : isPlainName "a" = true := by decide +kernel
  have joined : Path.join "/" "a" = "/a" := by decide +kernel
  have begins : (oneFile bytes).start? [] "/a" = some ([], [[0x61]]) := by
    have closed : ({} : FileSystem).start? [] "/a" = some ([], [[0x61]]) := by
      decide +kernel
    exact closed
  simp only [oneFile] at begins
  rw [contents?, if_pos plain, joined]
  simp [FileSystem.bytes?, FileSystem.node?, FileSystem.find?, oneFile, begins,
    FileSystem.walk, Node.at?, Node.entry?]

/-- A file that grows by two lines and is then replaced by a shorter one. -/
def grownAndReplaced : List (FileSystem × FolderCall) :=
  [(oneFile [0x61, 0x0A, 0x62], .readAfter "a" none 5),
    (oneFile [0x61, 0x0A, 0x62, 0x0D, 0x0A, 0xC3, 0x0A], .readAfter "a" (some 0) 5)]

theorem reply_after_replacement :
    readsOf "/" "a" (grownAndReplaced ++
        [(oneFile [0xFF, 0x0D, 0x0A], .readAfter "a" none 5)]) =
      [[0x61, 0x0A, 0x62], [0x61, 0x0A, 0x62, 0x0D, 0x0A, 0xC3, 0x0A],
        [0xFF, 0x0D, 0x0A]] ∧
    ∃ records,
      ((afterCalls { path := "/" } grownAndReplaced).call
        (oneFile [0xFF, 0x0D, 0x0A]) (.readAfter "a" none 5)).1 = .ok {
          source := some { name := "a", cursor := "3" }
          records
          boundary := true } ∧
      records.map some = [some (Record.parseLine 0 "\ufffd")] := by
  have asked : ∀ bytes position limit,
      FolderCall.reads? "/" (oneFile bytes) "a" (.readAfter "a" position limit) =
        some bytes := fun bytes _ _ => contents?_oneFile bytes
  have reads : readsOf "/" "a" (grownAndReplaced ++
        [(oneFile [0xFF, 0x0D, 0x0A], .readAfter "a" none 5)]) =
      [[0x61, 0x0A, 0x62], [0x61, 0x0A, 0x62, 0x0D, 0x0A, 0xC3, 0x0A],
        [0xFF, 0x0D, 0x0A]] := by
    simp [readsOf, grownAndReplaced, asked]
  refine ⟨reads, ?_⟩
  have served := reply_after_history "/" "a" grownAndReplaced
    (oneFile [0xFF, 0x0D, 0x0A]) (.readAfter "a" none 5) (asked _ _ _)
  rw [reads] at served
  obtain ⟨records, reply, alone⟩ := served (by
    simp only [List.isChain_cons_cons, List.isChain_singleton, Continues,
      and_true]
    decide)
  refine ⟨records, reply, alone.trans ?_⟩
  decide +kernel

end LogFolder
end LogPager
