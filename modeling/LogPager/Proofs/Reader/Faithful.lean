import LogPager.Proofs.Session.CatchingUp
import LogPager.Proofs.Session.Faithful
import LogPager.Proofs.Reader.Events

/-!
# Readers show an interval of their file

The files, the line maps, the window, the requests and the replies computed so
far agree with one another at every moment: maps and replies with some earlier
state of the files, of which the present one is a continuation.  The open
window therefore always holds the records of some interval of the complete
lines, and neither a late reply nor a live tail ever meets a gap.
-/

namespace LogPager

namespace LogFolder

theorem Grows.bytesOf {folder : LogFolder} {before after : FileSystem}
    (grows : folder.Grows before after) (name : String) :
    folder.bytesOf before name <+: folder.bytesOf after name := by
  unfold LogFolder.bytesOf
  cases found : folder.contents? before name with
  | none => exact List.nil_prefix
  | some bytes =>
      obtain ⟨more, grown⟩ := grows name bytes found
      rw [grown]
      exact List.prefix_append bytes more

/-- What a read leaves: either the folder as it was, with an error, or the
records selected of the file as it is. -/
theorem Follows.readContents {folder : LogFolder} {files : FileSystem}
    (follows : folder.Follows (folder.bytesOf files)) (name : String)
    (edge : Edge) (anchor : Option Nat) (limit : Nat) :
    let read := folder.readContents name (folder.contents? files name)
      fun total => LineRange.select total edge anchor limit
    (∃ error, read = (.error error, folder)) ∨
    ∃ message, read =
        (.ok message, folder.afterRead name (folder.bytesOf files name)) ∧
      (∃ cursor, message.source = some { name, cursor }) ∧
      message.records =
        (LineRange.select (fileRecords (folder.bytesOf files name)).length edge
          anchor limit).1.slice (fileRecords (folder.bytesOf files name)) := by
  intro read
  cases found : folder.contents? files name with
  | none =>
      refine .inl ⟨.unknownFile name, ?_⟩
      simp only [read, found, LogFolder.readContents]
  | some data =>
      have same : folder.contents? files name =
          some (folder.bytesOf files name) := by
        rw [LogFolder.bytesOf, found, Option.getD_some]
      have served := follows.readContents_eq name edge anchor limit
      rw [← same] at served
      exact .inr ⟨_, served, ⟨_, rfl⟩, rfl⟩

theorem contents?_readAfter (folder : LogFolder)
    (contents : Option (List UInt8)) (name : String) (position : Option Nat)
    (limit : Nat) (files : FileSystem) :
    (folder.readAfter contents name position limit).2.contents? files =
      folder.contents? files := by
  cases contents <;> rfl

theorem GrowsThrough.afterRead {folder : LogFolder} {files : FileSystem}
    {later : List FileSystem} (grows : folder.GrowsThrough files later)
    (name : String) (data : List UInt8) :
    (folder.afterRead name data).GrowsThrough files later := by
  induction later generalizing files with
  | nil => trivial
  | cons next later ih => exact ⟨grows.1, ih grows.2⟩

end LogFolder

namespace GrowingFolder

/-- The bytes of a log file now. -/
def bytesOf (source : GrowingFolder) (name : String) : List UInt8 :=
  source.folder.bytesOf source.files name

/-- The maps are true, and the files only grow from here on. -/
structure Follows (source : GrowingFolder) : Prop where
  maps : source.folder.Follows source.bytesOf
  later : source.folder.GrowsThrough source.files source.later

theorem Follows.advance {source : GrowingFolder} (follows : source.Follows) :
    source.advance.Follows ∧
      ∀ name, source.bytesOf name <+: source.advance.bytesOf name := by
  obtain ⟨folder, files, later⟩ := source
  cases later with
  | nil => exact ⟨follows, fun _ => List.prefix_refl _⟩
  | cons next later =>
      have grows := follows.later.1.bytesOf
      exact ⟨⟨follows.maps.grow grows, follows.later.2⟩, grows⟩

/-- A read leaves a source that follows its files, and serves what they hold
after the position once they have grown. -/
theorem Follows.readAfter {source : GrowingFolder} (follows : source.Follows)
    (live : LiveTail) (position : Option Nat) :
    (source.readAfter live position).2.Follows ∧
    (∀ name, source.bytesOf name <+:
      (source.readAfter live position).2.bytesOf name) ∧
    ∀ message, (source.readAfter live position).1 = .ok message →
      message.Continues (source.readAfter live position).2.bytesOf
        live.file.name position live.batch := by
  obtain ⟨advanced, grows⟩ := follows.advance
  rcases advanced.maps.readContents live.file.name .newer position
      live.batch with ⟨error, read⟩ | ⟨message, read, tagged, records⟩
  · have step : source.readAfter live position =
        (.error error, source.advance) := by
      simp only [GrowingFolder.readAfter, LogFolder.readAfter, read]
    rw [step]
    exact ⟨advanced, grows, fun _ => nofun⟩
  · have step : source.readAfter live position =
        (.ok message, { source.advance with
          folder := source.advance.folder.afterRead live.file.name
            (source.advance.bytesOf live.file.name) }) := by
      simp only [GrowingFolder.readAfter, LogFolder.readAfter, read]
      rfl
    rw [step]
    refine ⟨⟨advanced.maps.afterRead _, advanced.later.afterRead _ _⟩, grows, ?_⟩
    intro other same
    cases same
    exact ⟨tagged, records⟩

end GrowingFolder

namespace Session

/-- What catching up leaves of a source and a session that are true to the
files. -/
structure CaughtUp (source : GrowingFolder) (session : Session)
    (outcome : Option (Except SessionError Movement)) (after : GrowingFolder)
    (later : Session) : Prop where
  follows : after.Follows
  faithful : later.Faithful after.bytesOf
  grows : ∀ name, source.bytesOf name <+: after.bytesOf name
  sent : later.sent = session.sent
  fits : ∀ error, outcome ≠ some (.error (.splice error))

private theorem read_and_pushed {live : LiveTail}
    {source next : GrowingFolder} {session later : Session}
    {message : Message} {outcome : Except SessionError Movement}
    (follows : source.Follows) (faithful : session.Faithful source.bytesOf)
    (read : source.readAfter live (session.edge? .newer) = (.ok message, next))
    (pushed : session.push message = (outcome, later)) :
    next.Follows ∧ (∀ name, source.bytesOf name <+: next.bytesOf name) ∧
      later.sent = session.sent ∧ later.Faithful next.bytesOf ∧
      ∀ error, outcome ≠ .error (.splice error) := by
  obtain ⟨followsNext, grows, continues⟩ :=
    follows.readAfter live (session.edge? .newer)
  have step := session.pushed message
  rw [read] at followsNext grows continues
  rw [pushed] at step
  obtain ⟨pushedFaithful, fits⟩ :=
    step.faithful (faithful.grow grows) (continues message rfl)
  exact ⟨followsNext, grows, step.sent_eq, pushedFaithful, fits⟩

theorem CatchesUp.faithful {live : LiveTail} {reads : Nat}
    {source after : GrowingFolder} {session later : Session}
    {total : Movement} {outcome : Option (Except SessionError Movement)}
    (catchesUp : CatchesUp (GrowingFolder.readAfter live) live.batch reads
      source session total outcome after later)
    (follows : source.Follows) (faithful : session.Faithful source.bytesOf) :
    CaughtUp source session outcome after later := by
  induction catchesUp with
  | away | exhausted =>
      exact ⟨follows, faithful, fun _ => List.prefix_refl _, rfl, fun _ => nofun⟩
  | @unread reads source next session total error live_ read =>
      obtain ⟨followsNext, grows, _⟩ :=
        follows.readAfter live (session.edge? .newer)
      rw [read] at followsNext grows
      exact ⟨followsNext, faithful.grow grows, grows, rfl, fun _ => nofun⟩
  | refused live_ read pushed =>
      obtain ⟨followsNext, grows, sent, pushedFaithful, fits⟩ :=
        read_and_pushed follows faithful read pushed
      refine ⟨followsNext, pushedFaithful, grows, sent, ?_⟩
      intro other same
      cases same
      exact fits other rfl
  | finished live_ read pushed last =>
      obtain ⟨followsNext, grows, sent, pushedFaithful, _⟩ :=
        read_and_pushed follows faithful read pushed
      exact ⟨followsNext, pushedFaithful, grows, sent, fun _ => nofun⟩
  | onward live_ read pushed full moved rest ih =>
      obtain ⟨followsNext, grows, sent, pushedFaithful, _⟩ :=
        read_and_pushed follows faithful read pushed
      have caught := ih followsNext pushedFaithful
      refine ⟨caught.follows, caught.faithful, ?_, caught.sent.trans sent,
        caught.fits⟩
      intro name
      exact (grows name).trans (caught.grows name)

end Session

/-- A source whose files stay as they are, with the given contents in the file
that is read. -/
def GrowingFolder.Rests (files : FileSystem) (name : String)
    (contents : Option (List UInt8)) (source : GrowingFolder)
    (folder : LogFolder) : Prop :=
  source = { folder, files } ∧ folder.contents? files name = contents

theorem GrowingFolder.Rests.readAfter {files : FileSystem} {live : LiveTail}
    {contents : Option (List UInt8)} {source : GrowingFolder}
    {folder : LogFolder} {position : Option Nat}
    (rests : Rests files live.file.name contents source folder) :
    (source.readAfter live position).1 =
        (live.readStill contents folder position).1 ∧
      Rests files live.file.name contents (source.readAfter live position).2
        (live.readStill contents folder position).2 := by
  obtain ⟨rfl, same⟩ := rests
  have read : GrowingFolder.readAfter live { folder, files } position =
      ((live.readStill contents folder position).1,
        { folder := (live.readStill contents folder position).2, files }) := by
    simp only [GrowingFolder.readAfter, GrowingFolder.advance,
      LiveTail.readStill, same]
  rw [read]
  refine ⟨rfl, rfl, ?_⟩
  rw [LiveTail.readStill, LogFolder.contents?_readAfter]
  exact same

/-- While the files stay as they are, catching up is that of the live tail. -/
theorem Reader.step_catchUp_of_still (reader : Reader) (live : LiveTail) :
    let contents := reader.folder.contents? reader.files live.file.name
    reader.step (.catchUp live (live.readsFor contents reader.folder) []) =
      ((live.catchUp contents reader.folder reader.session).1.getD (.ok {}),
        { reader with
          folder := (live.catchUp contents reader.folder reader.session).2.1
          session := (live.catchUp contents reader.folder reader.session).2.2 }) := by
  intro contents
  have start : GrowingFolder.Rests reader.files live.file.name contents
      { folder := reader.folder, files := reader.files } reader.folder :=
    ⟨rfl, rfl⟩
  have alike : ∀ source folder position,
      GrowingFolder.Rests reader.files live.file.name contents source folder →
        (source.readAfter live position).1 =
            (live.readStill contents folder position).1 ∧
          GrowingFolder.Rests reader.files live.file.name contents
            (source.readAfter live position).2
            (live.readStill contents folder position).2 := by
    intro source folder position rests
    exact rests.readAfter
  obtain ⟨outcome, ⟨source, _⟩, session⟩ := Session.catchUp_related alike
    live.batch (live.readsFor contents reader.folder) start reader.session {}
  simp only [Reader.step, LiveTail.catchUp, outcome, source, session]

theorem Reply.Serves.grow {reply : Reply} {contents grown : String → List UInt8}
    {message : Message} {total : Nat}
    (serves : reply.Serves contents message total)
    (grows : ∀ name, contents name <+: grown name) :
    reply.Serves grown message total := by
  have records := fileRecords_grow (grows reply.request.file.name)
  have inside := (LineRange.select_ordered total reply.request.edge
    reply.request.anchor reply.request.limit).2
  refine ⟨serves.source, Nat.le_trans serves.inside records.length_le,
    serves.placed, ?_⟩
  rw [LineRange.slice_of_grown records (Nat.le_trans inside serves.inside)]
  exact serves.records

namespace Reader

/-- A reply to a request that was made, with records of its file. -/
structure Served (contents : String → List UInt8) (sent : List Request)
    (reply : Reply) : Prop where
  made : reply.request ∈ sent
  serves : ∀ message, reply.result = .ok message →
    ∃ total, reply.Serves contents message total

theorem Served.grow {contents grown : String → List UInt8}
    {sent later : List Request} {reply : Reply}
    (served : Served contents sent reply)
    (grows : ∀ name, contents name <+: grown name) (more : sent ⊆ later) :
    Served grown later reply := by
  refine ⟨more served.made, ?_⟩
  intro message result
  obtain ⟨total, serves⟩ := served.serves message result
  exact ⟨total, serves.grow grows⟩

/-- The maps, the session and the replies are true to the files. -/
structure Faithful (reader : Reader) : Prop where
  maps : reader.folder.Follows reader.bytesOf
  session : reader.session.Faithful reader.bytesOf
  served : ∀ reply ∈ reader.replies,
    Served reader.bytesOf reader.session.sent reply

namespace Faithful

theorem start (files : FileSystem) (path : String) (fetchLimit : Nat)
    {bound : Option Nat} (bounded : bound ≠ some 0) :
    (Reader.start files path fetchLimit bound).Faithful := by
  constructor
  · exact LogFolder.follows_of_new path _
  · exact Session.Faithful.new fetchLimit bounded _
  · intro reply member
    cases member

/-- An operation of the session that keeps it true to the files. -/
private theorem perform {reader : Reader} (faithful : reader.Faithful)
    (operation : Operation)
    (kept : (reader.session.perform operation).Faithful reader.bytesOf) :
    ({ reader with session := reader.session.perform operation } :
      Reader).Faithful := by
  refine ⟨faithful.maps, kept, ?_⟩
  intro reply member
  exact (faithful.served reply member).grow (fun _ => List.prefix_refl _)
    (reader.session.sent_subset_perform operation)

theorem grow {reader : Reader} (faithful : reader.Faithful)
    {files : FileSystem} (allowed : reader.Allows (.grow files)) :
    ({ reader with files } : Reader).Faithful := by
  have grows : ∀ name, reader.bytesOf name <+:
      reader.folder.bytesOf files name := allowed.bytesOf
  refine ⟨faithful.maps.grow grows, faithful.session.grow grows, ?_⟩
  intro reply member
  exact (faithful.served reply member).grow grows (List.Subset.refl _)

private theorem addReply {reader : Reader} (faithful : reader.Faithful)
    {folder : LogFolder} (maps : folder.Follows reader.bytesOf)
    (found : folder.bytesOf reader.files = reader.bytesOf) {reply : Reply}
    (served : Served reader.bytesOf reader.session.sent reply) :
    ({ reader with folder, replies := reader.replies ++ [reply] } :
      Reader).Faithful := by
  have bytes : Reader.bytesOf
      { reader with folder, replies := reader.replies ++ [reply] } =
        reader.bytesOf := found
  constructor
  · rw [bytes]
    exact maps
  · rw [bytes]
    exact faithful.session
  · rw [bytes]
    intro other member
    rcases List.mem_append.mp member with earlier | newest
    · exact faithful.served other earlier
    · rw [List.mem_singleton.mp newest]
      exact served

/-- An answer serves its request from the files as they are. -/
theorem answer {reader : Reader} (faithful : reader.Faithful)
    {request : Request} (made : request ∈ reader.session.sent)
    (cancelled : Bool) :
    (reader.step (.answer request cancelled)).2.Faithful := by
  have unread : ∀ error, Served reader.bytesOf reader.session.sent
      { request, result := .error error } := by
    intro error
    exact ⟨made, fun _ => nofun⟩
  cases cancelled with
  | true => exact faithful.addReply faithful.maps rfl (unread .cancelled)
  | false =>
      rcases faithful.maps.readContents request.file.name request.edge
          request.anchor request.limit with
        ⟨error, read⟩ | ⟨message, read, tagged, records⟩
      · have answered : reader.folder.fetch reader.files request false =
            (.error error, reader.folder) := read
        rw [step, answered]
        exact faithful.addReply faithful.maps rfl (unread error)
      · have answered : reader.folder.fetch reader.files request false =
            (.ok message, reader.folder.afterRead request.file.name
              (reader.bytesOf request.file.name)) := read
        rw [step, answered]
        apply faithful.addReply (faithful.maps.afterRead request.file.name) rfl
        refine ⟨made, ?_⟩
        intro other same
        cases same
        exact ⟨_, tagged, Nat.le_refl _, faithful.session.placed request made,
          records⟩

theorem deliver {reader : Reader} (faithful : reader.Faithful) {reply : Reply}
    (computed : reply ∈ reader.replies) :
    (reader.step (.deliver reply)).2.Faithful ∧
      ∀ error, (reader.step (.deliver reply)).1 ≠ .error (.splice error) := by
  have served := faithful.served reply computed
  obtain ⟨kept, fits⟩ := (reader.session.delivered reply).faithful
    faithful.session served.made served.serves
  exact ⟨faithful.perform (.deliver reply) kept, fits⟩

theorem catchUp {reader : Reader} (faithful : reader.Faithful)
    (live : LiveTail) (reads : Nat) {later : List FileSystem}
    (grows : reader.folder.GrowsThrough reader.files later) :
    (reader.step (.catchUp live reads later)).2.Faithful ∧
      ∀ error, (reader.step (.catchUp live reads later)).1 ≠
        .error (.splice error) := by
  have caught := (Session.catchesUp (GrowingFolder.readAfter live) live.batch
    reads { folder := reader.folder, files := reader.files, later }
    reader.session {}).faithful ⟨faithful.maps, grows⟩ faithful.session
  refine ⟨⟨caught.follows.maps, caught.faithful, ?_⟩, ?_⟩
  · intro reply member
    exact (faithful.served reply member).grow caught.grows
      (fun _ made => caught.sent.symm ▸ made)
  · intro error refused
    simp only [step] at refused
    rw [Option.getD_eq_iff] at refused
    rcases refused with found | ⟨_, absent⟩
    · exact caught.fits error found
    · cases absent

theorem step {reader : Reader} (faithful : reader.Faithful) (event : Event)
    (allowed : reader.Allows event) :
    (reader.step event).2.Faithful ∧
      ∀ error, (reader.step event).1 ≠ .error (.splice error) := by
  cases event with
  | grow files => exact ⟨faithful.grow allowed, fun _ => nofun⟩
  | openFile file =>
      exact ⟨faithful.perform (.openFile file)
        (faithful.session.openFile file), fun _ => nofun⟩
  | close =>
      exact ⟨faithful.perform .close faithful.session.close, fun _ => nofun⟩
  | requestMore edge =>
      exact ⟨faithful.perform (.requestMore edge)
        ((reader.session.requested edge).faithful faithful.session),
        fun _ => nofun⟩
  | answer request cancelled =>
      exact ⟨faithful.answer allowed cancelled, fun _ => nofun⟩
  | deliver reply => exact faithful.deliver allowed
  | catchUp live reads later => exact faithful.catchUp live reads allowed

end Faithful

theorem Reached.faithful {path : String} {fetchLimit : Nat}
    {bound : Option Nat} {reader : Reader}
    (reached : Reached path fetchLimit bound reader)
    (bounded : bound ≠ some 0) : reader.Faithful := by
  induction reached with
  | start files => exact Faithful.start files path fetchLimit bounded
  | step reached allowed faithful => exact (faithful.step _ allowed).1

/-- Whatever happens to a reader of growing files, the open window holds the
records of an interval of the complete lines of its file, each parsed from its
own line and at its own position, and no event reports records that do not fit
the window. -/
theorem Reached.shows_interval {path : String} {fetchLimit : Nat}
    {bound : Option Nat} {reader : Reader}
    (reached : Reached path fetchLimit bound reader)
    (bounded : bound ≠ some 0) :
    (∀ log, reader.session.opened = some log →
      ∃ first stop, first ≤ stop ∧
        stop ≤ (completeLines (reader.bytesOf log.file.name)).length ∧
        log.window.records.map (·.position) =
          List.range' first (stop - first) ∧
        ∀ record ∈ log.window.records, ∃ line,
          (completeLines (reader.bytesOf log.file.name))[record.position]? =
              some line ∧
            record = Record.parseLine record.position (lineText line)) ∧
    ∀ event, reader.Allows event →
      ∀ error, (reader.step event).1 ≠ .error (.splice error) := by
  have faithful := reached.faithful bounded
  refine ⟨?_, fun event allowed => (faithful.step event allowed).2⟩
  intro log opened
  obtain ⟨range, ordered, inside, same⟩ := faithful.session.shown log opened
  refine ⟨range.start, range.stop, ordered, inside, ?_, ?_⟩
  · rw [same, LineRange.map_position_slice (by rwa [length_fileRecords])]
    rfl
  · intro record member
    rw [same] at member
    exact line_of_mem_fileRecords
      (List.mem_of_mem_take (List.mem_of_mem_drop member))

/-- A folder with a file of two lines. -/
def twoLines : FileSystem :=
  { root := some (.folder [([0x61], .file [0x61, 0x0A, 0x62, 0x0A])]) }

/-- The file of two lines was opened. -/
def opening : Reader :=
  ((start twoLines "/" 2 none).step (.openFile { name := "a" })).2

/-- The request for its last records. -/
def openingRequest : Request :=
  { id := 1, epoch := 1, file := { name := "a" }, edge := .older
    anchor := none, limit := 2, token := ⟨0⟩ }

/-- The answer to it. -/
def openingReply : Reply :=
  { request := openingRequest
    result := .ok {
      source := some { name := "a", cursor := "4" }
      records := [{ position := 0, message := "a" },
        { position := 1, message := "b" }]
      boundary := true } }

private theorem bytes?_twoLines :
    twoLines.bytes? "/a" = some [0x61, 0x0A, 0x62, 0x0A] := by
  have begins : twoLines.start? [] "/a" = some ([], [[0x61]]) := by
    decide +kernel
  simp only [twoLines] at begins
  simp [FileSystem.bytes?, FileSystem.node?, FileSystem.find?, twoLines, begins,
    FileSystem.walk, Node.at?, Node.entry?]

private theorem contents?_opening :
    opening.folder.contents? opening.files "a" =
      some [0x61, 0x0A, 0x62, 0x0A] := by
  have plain : LogFolder.isPlainName "a" = true := by decide +kernel
  have path : Path.join opening.folder.path "a" = "/a" := by decide +kernel
  rw [LogFolder.contents?, if_pos plain, path]
  exact bytes?_twoLines

private theorem replies_opening :
    (opening.step (.answer openingRequest false)).2.replies =
      [openingReply] := by
  have read : (readLines "a" (.empty LineMap.usualInterval)
      [0x61, 0x0A, 0x62, 0x0A] fun total =>
        LineRange.select total .older none 2).1 = openingReply.result := by
    decide +kernel
  have answered : (opening.folder.fetch opening.files openingRequest false).1 =
      openingReply.result := by
    rw [LogFolder.fetch, if_neg Bool.false_ne_true, LogFolder.answer,
      show openingRequest.file.name = "a" from rfl, contents?_opening]
    exact read
  show [] ++ [Reply.mk openingRequest
    (opening.folder.fetch opening.files openingRequest false).1] = _
  rw [answered]
  rfl

theorem Reached.interval_after_opening :
    ∃ reader log, Reached "/" 2 none reader ∧
      reader.session.opened = some log ∧ log.window.records.length = 2 ∧
      ∃ first stop, first ≤ stop ∧
        stop ≤ (completeLines (reader.bytesOf log.file.name)).length ∧
        log.window.records.map (·.position) =
          List.range' first (stop - first) := by
  have made : openingRequest ∈ opening.session.sent := by decide
  have opened : Reached "/" 2 none opening := .step (.start twoLines) trivial
  have computed : openingReply ∈
      (opening.step (.answer openingRequest false)).2.replies := by
    rw [replies_opening]
    exact List.mem_singleton.mpr rfl
  have answered : Reached "/" 2 none
      (opening.step (.answer openingRequest false)).2 := .step opened made
  have delivered : Reached "/" 2 none ((opening.step
      (.answer openingRequest false)).2.step (.deliver openingReply)).2 :=
    .step answered computed
  have shown := (delivered.shows_interval (by decide)).1
  refine ⟨_, _, delivered, rfl, rfl, ?_⟩
  obtain ⟨first, stop, ordered, inside, positions, _⟩ := shown _ rfl
  exact ⟨first, stop, ordered, inside, positions⟩

end Reader
end LogPager
