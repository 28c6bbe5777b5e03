import LogPager.Proofs.Session.Anchors
import LogPager.Proofs.Window.Intervals

/-!
# Sessions that are true to their file

A session is true to the contents of its files when the open window holds an
interval of the lines of its file and every request is anchored at one of the
lines.  It stays so when the files grow, when it takes a reply that was read
from them at some earlier time, and when it takes what is read after its newest
record now.  None of these is refused as not fitting the window.
-/

namespace LogPager

/-- A reply with the records that its file, when it had `total` of its complete
lines, held next to the anchor. -/
structure Reply.Serves (reply : Reply) (contents : String → List UInt8)
    (message : Message) (total : Nat) : Prop where
  source : ∃ cursor,
    message.source = some { name := reply.request.file.name, cursor }
  inside : total ≤ (fileRecords (contents reply.request.file.name)).length
  placed : ∀ position, reply.request.anchor = some position → position < total
  records : message.records =
    (LineRange.select total reply.request.edge reply.request.anchor
      reply.request.limit).1.slice
        (fileRecords (contents reply.request.file.name))

/-- A message with the records that a file holds now after a position. -/
structure Message.Continues (message : Message)
    (contents : String → List UInt8) (name : String) (position : Option Nat)
    (limit : Nat) : Prop where
  source : ∃ cursor, message.source = some { name, cursor }
  records : message.records =
    (LineRange.select (fileRecords (contents name)).length .newer position
      limit).1.slice (fileRecords (contents name))

namespace Session

structure Faithful (session : Session) (contents : String → List UInt8) :
    Prop where
  anchored : session.Anchored
  shown : ∀ log, session.opened = some log →
    IsInterval (contents log.file.name) log.window.records
  placed : ∀ request ∈ session.sent, ∀ position,
    request.anchor = some position →
      position < (fileRecords (contents request.file.name)).length

namespace Faithful

theorem new (fetchLimit : Nat) {bound : Option Nat} (bounded : bound ≠ some 0)
    (contents : String → List UInt8) :
    (Session.new fetchLimit bound).Faithful contents := by
  refine ⟨Anchored.new fetchLimit bounded, ?_, ?_⟩
  · intro log opened
    cases opened
  · intro request member
    cases member

theorem grow {session : Session} {contents grown : String → List UInt8}
    (faithful : session.Faithful contents)
    (grows : ∀ name, contents name <+: grown name) :
    session.Faithful grown := by
  refine ⟨faithful.anchored, ?_, ?_⟩
  · intro log opened
    exact (faithful.shown log opened).grow (grows log.file.name)
  · intro request made position anchor
    have before := faithful.placed request made position anchor
    have longer := (fileRecords_grow (grows request.file.name)).length_le
    omega

theorem freed {session : Session} {contents : String → List UInt8}
    (faithful : session.Faithful contents) (status : SlotStatus) :
    (session.freed .older status).Faithful contents :=
  ⟨faithful.anchored.freed status, faithful.shown, faithful.placed⟩

end Faithful

theorem Requested.faithful {session after : Session} {edge : Edge}
    {made : Bool} (requested : session.Requested edge made after)
    {contents : String → List UInt8}
    (faithful : session.Faithful contents) : after.Faithful contents := by
  have anchored := requested.anchored faithful.anchored
  cases requested with
  | refused settled => exact faithful
  | @made log toward anchor opened target free =>
      refine ⟨anchored, faithful.shown, ?_⟩
      intro request member position placed
      rcases List.mem_append.mp member with earlier | newest
      · exact faithful.placed request earlier position placed
      · obtain ⟨_, edge, _⟩ := faithful.anchored.target opened target
        have sound := (faithful.anchored.tailing log opened).sound
        rw [List.mem_singleton.mp newest] at placed ⊢
        have held : log.window.edge? .older = some position :=
          edge.symm.trans placed
        rw [sound.edge?_eq] at held
        exact (faithful.shown log opened).edge_lt held

namespace Faithful

theorem openFile {session : Session} {contents : String → List UInt8}
    (faithful : session.Faithful contents) (file : FileRef) :
    (session.openFile file).2.Faithful contents := by
  apply (session.requested_openFile file).faithful
  refine ⟨faithful.anchored.reopened file, ?_, faithful.placed⟩
  intro log opened
  cases opened
  exact .nil _

theorem close {session : Session} {contents : String → List UInt8}
    (faithful : session.Faithful contents) :
    session.close.Faithful contents := by
  refine ⟨faithful.anchored.perform .close trivial, ?_, faithful.placed⟩
  intro log opened
  cases opened

private theorem settleWindow {session : Session}
    {contents : String → List UInt8} (faithful : session.Faithful contents)
    {file : FileRef} {window : Window} {grown : Edge} {movement : Movement}
    (anchored : (session.settleWindow { file, window } grown movement).2.Anchored)
    (tailing : window.Tailing)
    (interval : IsInterval (contents file.name) window.records) :
    (session.settleWindow { file, window } grown movement).2.Faithful
      contents := by
  refine ⟨anchored, ?_, faithful.placed⟩
  intro log opened
  rw [opened_settleWindow] at opened
  cases opened
  exact tailing.enforceBound_interval interval faithful.anchored.bounded _ _ _

end Faithful

/-- The page of a reply that serves the request in flight is merged. -/
theorem Faithful.merges {session : Session} {contents : String → List UInt8}
    (faithful : session.Faithful contents) {reply : Reply} {log : OpenLog}
    (made : reply.request ∈ session.sent)
    (awaits : session.Awaits reply.request log) {message : Message}
    {total : Nat} (serves : reply.Serves contents message total)
    {page : Page} (records : page.records = message.records) :
    ∃ movement window,
      log.window.mergeFetched page (fetchedBy reply.request message) =
        .ok (movement, window) ∧
      IsInterval (contents log.file.name) window.records := by
  have anchored := faithful.anchored
  have sound := (anchored.tailing log awaits.opened).sound
  have older := anchored.older _ made
  have anchor := (anchored.anchor _ made awaits.holds log awaits.opened).1
  have name := FileRef.sameFile_iff.mp awaits.file
  have interval := faithful.shown log awaits.opened
  rw [← name] at interval ⊢
  obtain ⟨ordered, inside⟩ := LineRange.select_ordered total
    reply.request.edge reply.request.anchor reply.request.limit
  apply sound.mergeFetched_interval interval (records.trans serves.records)
    ordered (Nat.le_trans inside serves.inside)
  intro position held
  have anchorHeld : reply.request.anchor = some position := by
    rw [anchor, ← older]
    exact held
  rw [anchorHeld]
  exact LineRange.select_adjoins (serves.placed position anchorHeld) _ _

theorem Delivered.faithful {session after : Session} {reply : Reply}
    {outcome : Except SessionError Movement}
    (delivered : session.Delivered reply outcome after)
    {contents : String → List UInt8}
    (faithful : session.Faithful contents)
    (made : reply.request ∈ session.sent)
    (served : ∀ message, reply.result = .ok message →
      ∃ total, reply.Serves contents message total) :
    after.Faithful contents ∧ ∀ error, outcome ≠ .error (.splice error) := by
  have anchored := delivered.anchored faithful.anchored made
  have older := faithful.anchored.older _ made
  cases delivered with
  | dropped unwanted late => exact ⟨faithful, fun _ => nofun⟩
  | discarded awaits discards =>
      rw [older]
      refine ⟨faithful.freed _, ?_⟩
      intro error refused
      cases discards with
      | unordered result order =>
          obtain ⟨total, serves⟩ := served _ result
          obtain ⟨_, inside⟩ := LineRange.select_ordered total
            reply.request.edge reply.request.anchor reply.request.limit
          have ordered := LineRange.ordered_slice
            (Nat.le_trans inside serves.inside)
          rw [← serves.records, ← Page.firstUnordered?_eq_none_iff, order]
            at ordered
          cases ordered
      | failed | foreclosed | keepalive | foreign => cases refused
  | refetched awaits open_ result tagged paged gap =>
      obtain ⟨total, serves⟩ := served _ result
      obtain ⟨movement, window, merged, _⟩ := faithful.merges made awaits
        serves (Page.records_of_ofRecords paged)
      rw [gap] at merged
      cases merged
  | merged awaits open_ result tagged same paged merged =>
      obtain ⟨total, serves⟩ := served _ result
      obtain ⟨_, tailing⟩ := faithful.anchored.takesFetched made awaits merged
      obtain ⟨_, _, again, interval⟩ := faithful.merges made awaits
        serves (Page.records_of_ofRecords paged)
      cases merged.symm.trans again
      have freed : (session.freed reply.request.edge .idle).Faithful contents :=
        older ▸ faithful.freed .idle
      exact ⟨freed.settleWindow anchored tailing interval, fun _ => nofun⟩

theorem Faithful.mergesLive {session : Session}
    {contents : String → List UInt8} (faithful : session.Faithful contents)
    {log : OpenLog} (opened : session.opened = some log) {message : Message}
    {limit : Nat}
    (continues : message.Continues contents log.file.name
      (session.edge? .newer) limit)
    (live : log.window.reached.newer = true) {page : Page}
    (records : page.records = message.records) :
    ∃ movement window, log.window.mergeLive page = .ok (movement, window) ∧
      IsInterval (contents log.file.name) window.records := by
  have sound := (faithful.anchored.tailing log opened).sound
  have interval := faithful.shown log opened
  have newest : session.edge? .newer = log.window.edge? .newer := by
    rw [edge?, opened]
    rfl
  obtain ⟨ordered, inside⟩ := LineRange.select_ordered
    (fileRecords (contents log.file.name)).length .newer
    (session.edge? .newer) limit
  apply sound.mergeLive_interval live interval
    (records.trans continues.records) ordered inside
  intro position held
  have within : position < (fileRecords (contents log.file.name)).length := by
    rw [sound.edge?_eq] at held
    exact interval.edge_lt held
  rw [newest, held]
  exact LineRange.select_adjoins within _ _

theorem Pushed.faithful {session after : Session} {message : Message}
    {outcome : Except SessionError Movement}
    (pushed : session.Pushed message outcome after)
    {contents : String → List UInt8}
    (faithful : session.Faithful contents) {name : String} {limit : Nat}
    (continues : message.Continues contents name (session.edge? .newer) limit) :
    after.Faithful contents ∧ ∀ error, outcome ≠ .error (.splice error) := by
  have anchored := pushed.anchored faithful.anchored
  obtain ⟨cursor, tagged⟩ := continues.source
  cases pushed with
  | closed | foreign | ignored => exact ⟨faithful, fun _ => nofun⟩
  | unordered opened order =>
      obtain ⟨_, inside⟩ := LineRange.select_ordered
        (fileRecords (contents name)).length .newer (session.edge? .newer) limit
      have ordered := LineRange.ordered_slice inside
      rw [← continues.records, ← Page.firstUnordered?_eq_none_iff, order]
        at ordered
      cases ordered
  | unmerged opened same live paged failed =>
      cases FileRef.sameFile_iff.mp (same _ tagged)
      obtain ⟨movement, window, merged, _⟩ := faithful.mergesLive opened
        continues live (Page.records_of_ofRecords paged)
      rw [failed] at merged
      cases merged
  | merged opened same live paged merged =>
      cases FileRef.sameFile_iff.mp (same _ tagged)
      have tailing := faithful.anchored.tailing _ opened
      have takes := tailing.sound.mergeLive live merged
      obtain ⟨_, _, again, interval⟩ := faithful.mergesLive opened
        continues live (Page.records_of_ofRecords paged)
      cases merged.symm.trans again
      refine ⟨?_, fun _ => nofun⟩
      exact faithful.settleWindow anchored (takes.tailing live tailing) interval

end Session
end LogPager
