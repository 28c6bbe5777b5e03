import LogPager.Proofs.Session.Bounds
import LogPager.Proofs.Session.Shifts

/-!
# A reply and a push in either order

A reply puts older records before those held and a push newer ones after them.
They do not disturb each other: each is refused or merged for what is held at
its own edge.  If the reply comes first, the bound is kept twice; if the push
comes first, the request still in flight holds every record until the reply, and
the bound is kept once.  The same records remain in the end.
-/

namespace LogPager

theorem FileRef.sameFile_eq {left right : FileRef}
    (name : right.name = left.name) (file : FileRef) :
    file.sameFile right = file.sameFile left := by
  rw [sameFile, sameFile, name]

theorem PerEdge.eq_of_get {left right : PerEdge α}
    (same : left.get = right.get) : left = right := by
  have older : left.older = right.older := congrFun same .older
  have newer : left.newer = right.newer := congrFun same .newer
  cases left
  cases right
  cases older
  cases newer
  rfl

namespace Session

/-- The flags of a window into which a fetched page was merged. -/
def reachedBy (window : Window) (fetched : Fetched) (page : Page)
    (edge : Edge) : Bool :=
  window.reached.get edge ||
    fetched.reaches window.isEmpty page.length edge

/-- The records that remain when the bound is kept: all of them while a request
for older ones is in flight. -/
def kept (session : Session) (records : List Record) : List Record :=
  if session.slots.isInFlight .older then records
  else Window.newest session.bound records

theorem kept_freed (session : Session) (status : SlotStatus)
    (records : List Record) :
    (session.freed .older status).kept records =
      Window.newest session.bound records :=
  rfl

theorem exists_kept_eq_drop (session : Session) (records : List Record) :
    ∃ gone, session.kept records = records.drop gone := by
  unfold kept
  split
  · exact ⟨0, rfl⟩
  · unfold Window.newest
    cases session.bound with
    | none => exact ⟨0, rfl⟩
    | some most => exact ⟨records.length - most, rfl⟩

theorem records_enforceBound_eq_kept {session : Session} {window : Window}
    (tailing : window.Tailing) (bounded : session.bound ≠ some 0)
    (grown : Edge) (movement : Movement) :
    (window.enforceBound session.bound grown session.slots.isInFlight
      movement).2.records = session.kept window.records := by
  unfold kept
  split
  · rename_i flying
    rw [tailing.enforceBound_of_inFlight bounded grown flying]
  · rename_i idle
    exact tailing.records_enforceBound bounded grown
      (Bool.not_eq_true _ ▸ idle) movement

/-- A reply or push is taken, of whose records `appended` are put at the newer
edge.  The file of a log is open afterwards, and its window has these records and
flags. -/
structure Leaves (session : Session) (operation : Operation) (log : OpenLog)
    (records : List Record) (reached : Edge → Bool) (appended : Nat) :
    Prop where
  taken : ∃ movement, session.report? operation = some (.ok movement) ∧
    movement.added.newer = appended
  left : ∃ later, (session.perform operation).opened = some later ∧
    later.file.name = log.file.name ∧ later.window.records = records ∧
    later.window.reached.get = reached

theorem leaves_of_settleWindow {session base : Session} {operation : Operation}
    {log : OpenLog} {file : FileRef} {window : Window} {grown : Edge}
    {movement : Movement} (bounded : base.bound ≠ some 0)
    (name : file.name = log.file.name) (tailing : window.Tailing)
    (reported : session.report? operation =
      some (.ok (base.settleWindow { file, window } grown movement).1))
    (performed : session.perform operation =
      (base.settleWindow { file, window } grown movement).2) :
    session.Leaves operation log (base.kept window.records)
      window.reached.get movement.added.newer := by
  constructor
  · refine ⟨_, reported, ?_⟩
    rw [fst_settleWindow, tailing.sound.added_enforceBound]
  · rw [performed]
    refine ⟨_, opened_settleWindow _ _ _ _, name, ?_, ?_⟩
    · exact records_enforceBound_eq_kept tailing bounded grown movement
    · rw [tailing.sound.reached_enforceBound]

namespace Leaves

variable {session : Session} {operation : Operation} {log : OpenLog}
  {records : List Record} {reached : Edge → Bool} {appended : Nat}

theorem added_moved
    (leaves : session.Leaves operation log records reached appended) :
    (session.moved operation).added.newer = appended := by
  obtain ⟨movement, reported, added⟩ := leaves.taken
  rw [moved_of_report reported, added]

theorem records_perform
    (leaves : session.Leaves operation log records reached appended)
    (anchored : session.Anchored) (admitted : session.Admits operation) :
    (session.perform operation).records = records := by
  obtain ⟨later, left, _, same, _⟩ := leaves.left
  rw [(anchored.perform operation admitted).sound.records_of_opened left, same]

theorem reached_perform
    (leaves : session.Leaves operation log records reached appended) :
    (session.perform operation).view.reached.get = reached := by
  obtain ⟨later, left, _, _, same⟩ := leaves.left
  rw [view_of_opened left]
  exact same

theorem agreeAt {later : OpenLog}
    (leaves : session.Leaves operation log records reached appended)
    (anchored : session.Anchored) (admitted : session.Admits operation)
    (opened : session.opened = some log) (holding : log.window.records ≠ [])
    (left : (session.perform operation).opened = some later) {edge : Edge}
    (same : edge.item? records = edge.item? log.window.records)
    (flag : reached edge = log.window.reached.get edge) :
    log.window.AgreeAt edge later.window := by
  obtain ⟨other, otherLeft, _, rfl, rfl⟩ := leaves.left
  cases left.symm.trans otherLeft
  exact .of_item? (anchored.sound log opened)
    ((anchored.perform operation admitted).sound later left) holding same flag

end Leaves

/-- The page of a reply is merged into the window of the open file. -/
structure MergesPage (session : Session) (reply : Reply) (log : OpenLog)
    (message : Message) (page : Page) : Prop where
  awaits : session.Awaits reply.request log
  open_ : log.window.reached.get reply.request.edge = false
  result : reply.result = .ok message
  tagged : ∃ source, message.source = some source ∧
    source.sameFile log.file = true ∧
    Page.ofRecords source.name message.records = .ok page
  merged : ∃ grown, log.window.mergeFetched page
    (fetchedBy reply.request message) = .ok grown

theorem mergesPage_of_merges {session : Session} {reply : Reply}
    (merges : session.merges reply = true) :
    ∃ log message page, session.MergesPage reply log message page := by
  obtain ⟨message, movement, result, tagged, taken⟩ := merges_iff.mp merges
  have delivered := session.delivered reply
  rw [taken] at delivered
  generalize (session.deliver reply).2 = after at delivered
  cases delivered with
  | discarded awaits discards =>
      cases discards with
      | keepalive same source =>
          cases result.symm.trans same
          rw [source] at tagged
          cases tagged
  | merged awaits open_ result tagged same paged merged =>
      exact ⟨_, _, _, awaits, open_, result, ⟨_, tagged, same, paged⟩,
        ⟨_, merged⟩⟩

namespace MergesPage

variable {session : Session} {reply : Reply} {log : OpenLog}
  {message : Message} {page : Page}

theorem step (merging : session.MergesPage reply log message page) :
    ∃ (source : FileRef) (movement : Movement) (window : Window),
      log.window.mergeFetched page (fetchedBy reply.request message) =
        .ok (movement, window) ∧
      session.deliver reply =
        (.ok ((session.freed reply.request.edge .idle).settleWindow
            { file := { log.file with cursor := source.cursor }, window }
            reply.request.edge movement).1,
          ((session.freed reply.request.edge .idle).settleWindow
            { file := { log.file with cursor := source.cursor }, window }
            reply.request.edge movement).2) := by
  obtain ⟨source, tagged, same, paged⟩ := merging.tagged
  obtain ⟨⟨movement, window⟩, merged⟩ := merging.merged
  exact ⟨source, movement, window, merged, deliver_eq_of_merged merging.awaits
    merging.open_ merging.result tagged same paged merged⟩

theorem merges (merging : session.MergesPage reply log message page) :
    session.merges reply = true := by
  obtain ⟨source, tagged, _, _⟩ := merging.tagged
  obtain ⟨_, movement, _, _, step⟩ := merging.step
  exact merges_iff.mpr ⟨message, _, merging.result, by simp [tagged],
    congrArg Prod.fst step⟩

theorem kept_deliver (merging : session.MergesPage reply log message page)
    (older : reply.request.edge = .older) (records : List Record) :
    (session.deliver reply).2.kept records =
      Window.newest session.bound records := by
  obtain ⟨_, _, _, _, step⟩ := merging.step
  rw [step, older]
  exact session.kept_freed .idle records

/-- A reply to a request for older records puts those that are not held before
the others and then keeps the bound. -/
theorem leaves (merging : session.MergesPage reply log message page)
    (anchored : session.Anchored) (made : reply.request ∈ session.sent) :
    session.Leaves (.deliver reply) log
      (Window.newest session.bound
        (page.beyond .older (log.window.edge? .older) ++ log.window.records))
      (reachedBy log.window (fetchedBy reply.request message) page) 0 := by
  obtain ⟨source, movement, window, merged, step⟩ := merging.step
  obtain ⟨takes, tailing⟩ := anchored.takesFetched made merging.awaits merged
  have older : (fetchedBy reply.request message).edge = .older :=
    anchored.older _ made
  have bounded : (session.freed reply.request.edge .idle).bound ≠ some 0 :=
    anchored.bounded
  have name : { log.file with cursor := source.cursor }.name = log.file.name :=
    rfl
  have settled : session.Leaves (.deliver reply) log _ _ _ :=
    leaves_of_settleWindow bounded name tailing
      (congrArg some (congrArg Prod.fst step)) (congrArg Prod.snd step)
  have remain : (session.freed reply.request.edge .idle).kept window.records =
      Window.newest session.bound
        (page.beyond .older (log.window.edge? .older) ++
          log.window.records) := by
    rw [anchored.older _ made, kept_freed, takes.records, older]
    rfl
  have flags : window.reached.get =
      reachedBy log.window (fetchedBy reply.request message) page :=
    funext takes.reached
  have appended : movement.added.newer = 0 := by
    rw [takes.movement, older]
    rfl
  rw [remain, flags, appended] at settled
  exact settled

theorem agreeAt_newer (merging : session.MergesPage reply log message page)
    (anchored : session.Anchored) (made : reply.request ∈ session.sent)
    (holding : log.window.records ≠ []) {later : OpenLog}
    (left : (session.deliver reply).2.opened = some later) :
    log.window.AgreeAt .newer later.window := by
  have live := (anchored.tailing log merging.awaits.opened).live holding
  apply (merging.leaves anchored made).agreeAt anchored made
    merging.awaits.opened holding left
  · refine (Window.getLast?_newest anchored.bounded _).trans ?_
    show Edge.older.opposite.item? (Edge.older.put _ log.window.records) = _
    exact Edge.item?_opposite_put holding
  · simp [reachedBy, PerEdge.get, live]

/-- The reply is merged as well in a window that agrees at its edge, when the
same file is open and the same requests are in flight. -/
theorem of_agree (merging : session.MergesPage reply log message page)
    {other : Session} {rival : OpenLog} (opened : other.opened = some rival)
    (name : rival.file.name = log.file.name)
    (slots : other.slots = session.slots)
    (agree : log.window.AgreeAt reply.request.edge rival.window) :
    other.MergesPage reply rival message page := by
  obtain ⟨source, tagged, same, paged⟩ := merging.tagged
  have sameFile := FileRef.sameFile_eq name
  constructor
  · constructor
    · exact opened
    · rw [sameFile]
      exact merging.awaits.file
    · rw [slots]
      exact merging.awaits.epoch
    · rw [slots]
      exact merging.awaits.holds
  · rw [agree.reached]
    exact merging.open_
  · exact merging.result
  · refine ⟨source, tagged, ?_, paged⟩
    rw [sameFile]
    exact same
  · exact agree.mergeFetched_ok merging.merged

end MergesPage

/-- The page of a pushed message is merged into the window of the open file. -/
structure MergesPush (session : Session) (message : Message) (log : OpenLog)
    (page : Page) : Prop where
  opened : session.opened = some log
  same : ∀ source, message.source = some source →
    source.sameFile log.file = true
  live : log.window.reached.newer = true
  paged : Page.ofRecords log.file.name message.records = .ok page
  merged : ∃ grown, log.window.mergeLive page = .ok grown

theorem MergesPush.leaves {session : Session} {message : Message}
    {log : OpenLog} {page : Page}
    (merging : session.MergesPush message log page)
    (anchored : session.Anchored) :
    session.Leaves (.push message) log
      (session.kept (log.window.records ++
        page.beyond .newer (log.window.edge? .newer)))
      log.window.reached.get
      (page.beyond .newer (log.window.edge? .newer)).length := by
  obtain ⟨⟨movement, window⟩, merged⟩ := merging.merged
  have tailing := anchored.tailing log merging.opened
  have takes := tailing.sound.mergeLive merging.live merged
  have step := push_eq_of_live merging.opened merging.same merging.live
  simp only [merging.paged, bind, Except.bind, merged] at step
  have name : { log.file with
      cursor := message.source.elim log.file.cursor (·.cursor) }.name =
        log.file.name := rfl
  have settled : session.Leaves (.push message) log _ _ _ :=
    leaves_of_settleWindow anchored.bounded name
      (takes.tailing merging.live tailing)
      (congrArg some (congrArg Prod.fst step)) (congrArg Prod.snd step)
  have appended : movement.added.newer =
      (page.beyond .newer (log.window.edge? .newer)).length := by
    rw [takes.movement]
    exact (Movement.added_add .newer .newer _).trans (if_pos rfl)
  rw [takes.records, takes.reached, appended] at settled
  exact settled

theorem MergesPush.agreeAt_older {session : Session} {message : Message}
    {log later : OpenLog} {page : Page}
    (merging : session.MergesPush message log page)
    (anchored : session.Anchored)
    (flying : session.slots.isInFlight .older = true)
    (holding : log.window.records ≠ [])
    (left : (session.push message).2.opened = some later) :
    log.window.AgreeAt .older later.window := by
  apply (merging.leaves anchored).agreeAt anchored trivial merging.opened
    holding left
  · rw [kept, if_pos flying]
    show Edge.newer.opposite.item? (Edge.newer.put _ log.window.records) = _
    exact Edge.item?_opposite_put holding
  · rfl

/-- The same file is open in two sessions, and both windows hold the live end
with the same newest record.  Then they refuse a push alike or both merge it. -/
theorem push_alike {session other : Session} {log rival : OpenLog}
    (opened : session.opened = some log) (otherOpened : other.opened = some rival)
    (name : rival.file.name = log.file.name)
    (live : log.window.reached.newer = true)
    (agree : log.window.AgreeAt .newer rival.window) (message : Message) :
    (∃ error, session.push message = (.error error, session) ∧
      other.push message = (.error error, other)) ∨
    ∃ page, session.MergesPush message log page ∧
      other.MergesPush message rival page := by
  have sameFile := FileRef.sameFile_eq name
  have otherLive : rival.window.reached.newer = true :=
    Eq.trans agree.reached live
  -- A message for another file is refused whatever the window holds.
  by_cases foreign : ∃ source, message.source = some source ∧
      source.sameFile log.file = false
  · obtain ⟨source, tagged, away⟩ := foreign
    refine .inl ⟨.stale .supersededFile, ?_, ?_⟩
    · simp [push, opened, tagged, away]
    · simp [push, otherOpened, tagged, sameFile, away]
  · have same : ∀ source, message.source = some source →
        source.sameFile log.file = true := by
      intro source tagged
      by_contra away
      exact foreign ⟨source, tagged, by simpa using away⟩
    have otherSame : ∀ source, message.source = some source →
        source.sameFile rival.file = true := by
      intro source tagged
      rw [sameFile]
      exact same source tagged
    rw [push_eq_of_live opened same live,
      push_eq_of_live otherOpened otherSame otherLive, name]
    cases paged : Page.ofRecords log.file.name message.records with
    | error error => exact .inl ⟨.splice error, rfl, rfl⟩
    | ok page =>
        cases merged : log.window.mergeLive page with
        | error error =>
            have otherFailed := agree.mergeLive_error merged
            refine .inl ⟨.splice error, ?_, ?_⟩
            · simp only [bind, Except.bind, merged]
            · simp only [bind, Except.bind, otherFailed]
        | ok grown =>
            cases otherMerged : rival.window.mergeLive page with
            | error error =>
                rw [agree.symm.mergeLive_error otherMerged] at merged
                cases merged
            | ok otherGrown =>
                refine .inr ⟨page, ?_, ?_⟩
                · exact ⟨opened, same, live, paged, grown, merged⟩
                · exact ⟨otherOpened, otherSame, otherLive, name ▸ paged,
                    otherGrown, otherMerged⟩

/-- Two operations come to the same records, flags and shift in either
order. -/
structure Commute (session : Session) (first second : Operation) : Prop where
  records : (session.run [first, second]).records =
    (session.run [second, first]).records
  reached : (session.run [first, second]).view.reached =
    (session.run [second, first]).view.reached
  indexShift : (session.movedBy [first, second]).indexShift =
    (session.movedBy [second, first]).indexShift

theorem movedBy_pair_newer (session : Session) (first second : Operation) :
    (session.movedBy [first, second]).added.newer =
      (session.moved first).added.newer +
        ((session.perform first).moved second).added.newer := by
  have inner := Movement.added_combine
    ((session.perform first).moved second) {} .newer
  have outer := Movement.added_combine (session.moved first)
    (((session.perform first).moved second).combine {}) .newer
  exact outer.trans (congrArg _ inner)

theorem commute_of_refused {session : Session} {reply : Reply}
    {message : Message} {error : SessionError}
    (before : session.push message = (.error error, session))
    (after : (session.deliver reply).2.push message =
      (.error error, (session.deliver reply).2)) :
    session.Commute (.deliver reply) (.push message) := by
  have replyFirst : session.run [.deliver reply, .push message] =
      (session.deliver reply).2 := by
    simp only [run, perform, after]
  have pushFirst : session.run [.push message, .deliver reply] =
      (session.deliver reply).2 := by
    simp only [run, perform, before]
  constructor
  · rw [replyFirst, pushFirst]
  · rw [replyFirst, pushFirst]
  · simp only [movedBy, perform, before, after, Movement.indexShift_combine,
      moved, report?]
    omega

section

variable {session : Session} {reply : Reply} {log : OpenLog}
  {answer message : Message} {older newer : Page}

/-- After a reply that is merged, a push puts the same records at the newer edge
as before it. -/
theorem MergesPush.leaves_after_reply {afterReply : OpenLog}
    (anchored : session.Anchored) (made : reply.request ∈ session.sent)
    (merging : session.MergesPage reply log answer older)
    (holding : log.window.records ≠ [])
    (replyOpened : (session.deliver reply).2.opened = some afterReply)
    (pushes : (session.deliver reply).2.MergesPush message afterReply newer) :
    (session.deliver reply).2.Leaves (.push message) afterReply
      (Window.newest session.bound
        (older.beyond .older (log.window.edge? .older) ++ log.window.records ++
          newer.beyond .newer (log.window.edge? .newer)))
      (reachedBy log.window (fetchedBy reply.request answer) older)
      (newer.beyond .newer (log.window.edge? .newer)).length := by
  have agree := merging.agreeAt_newer anchored made holding replyOpened
  obtain ⟨_, same, _, records, reached⟩ := (merging.leaves anchored made).left
  cases replyOpened.symm.trans same
  have leaves := pushes.leaves (anchored.perform (.deliver reply) made)
  rw [agree.held, records, reached,
    merging.kept_deliver (anchored.older _ made),
    Window.newest_newest_append] at leaves
  exact leaves

/-- After a push that is merged, a reply puts the same records at the older edge
as before it, and only now is the bound kept. -/
theorem MergesPage.leaves_after_push (anchored : session.Anchored)
    (made : reply.request ∈ session.sent)
    (merging : session.MergesPage reply log answer older)
    (holding : log.window.records ≠ [])
    (pushes : session.MergesPush message log newer) :
    ∃ afterPush,
      (session.push message).2.MergesPage reply afterPush answer older ∧
      (session.push message).2.Leaves (.deliver reply) afterPush
        (Window.newest session.bound
          (older.beyond .older (log.window.edge? .older) ++
            (log.window.records ++
              newer.beyond .newer (log.window.edge? .newer))))
        (reachedBy log.window (fetchedBy reply.request answer) older) 0 := by
  have flying := anchored.isInFlight_of_holds made merging.awaits.holds
  obtain ⟨afterPush, opened, name, records, reached⟩ :=
    (pushes.leaves anchored).left
  have agree := pushes.agreeAt_older anchored flying holding opened
  have edge : reply.request.edge = .older := anchored.older _ made
  have after := merging.of_agree opened name
    (session.pushed message).slots_eq (edge ▸ agree)
  refine ⟨afterPush, after, ?_⟩
  have leaves := after.leaves (anchored.perform (.push message) trivial)
    (session.sent_subset_perform (.push message) made)
  have flags : reachedBy afterPush.window (fetchedBy reply.request answer)
        older =
      reachedBy log.window (fetchedBy reply.request answer) older := by
    funext edge
    rw [reachedBy, reachedBy, reached, agree.some, agree.otherSome]
  rw [agree.held, records, kept, if_pos flying, flags,
    session.bound_perform (.push message)] at leaves
  exact leaves

/-- A reply is merged and so is a push before and after it.  Then the reply is
merged after the push as well, and their order makes no difference. -/
theorem Anchored.commute_of_merged {afterReply : OpenLog}
    (anchored : session.Anchored) (made : reply.request ∈ session.sent)
    (merging : session.MergesPage reply log answer older)
    (holding : log.window.records ≠ [])
    (replyOpened : (session.deliver reply).2.opened = some afterReply)
    (before : session.MergesPush message log newer)
    (after : (session.deliver reply).2.MergesPush message afterReply newer) :
    (session.push message).2.merges reply = true ∧
      session.Commute (.deliver reply) (.push message) := by
  have replied := anchored.perform (.deliver reply) made
  have pushed := anchored.perform (.push message) trivial
  have madeAfter := session.sent_subset_perform (.push message) made
  have replyFirst :=
    after.leaves_after_reply anchored made merging holding replyOpened
  obtain ⟨afterPush, merges, pushFirst⟩ :=
    merging.leaves_after_push anchored made holding before
  have records : (session.run [.deliver reply, .push message]).records =
      (session.run [.push message, .deliver reply]).records := by
    rw [← List.append_assoc] at pushFirst
    exact (replyFirst.records_perform replied trivial).trans
      (pushFirst.records_perform pushed madeAfter).symm
  refine ⟨merges.merges, records, ?_, ?_⟩
  · exact PerEdge.eq_of_get
      (replyFirst.reached_perform.trans pushFirst.reached_perform.symm)
  · -- The shift follows from the records and from what came at the newer edge.
    have replyAdmitted : session.AdmitsAll [.deliver reply, .push message] :=
      ⟨made, trivial, trivial⟩
    have pushAdmitted : session.AdmitsAll [.push message, .deliver reply] :=
      ⟨trivial, madeAfter, trivial⟩
    have appended :
        (session.movedBy [.deliver reply, .push message]).added.newer =
          (session.movedBy [.push message, .deliver reply]).added.newer := by
      calc
        (session.movedBy [.deliver reply, .push message]).added.newer =
            0 + (newer.beyond .newer (log.window.edge? .newer)).length := by
          rw [movedBy_pair_newer, (merging.leaves anchored made).added_moved]
          exact congrArg _ replyFirst.added_moved
        _ = (newer.beyond .newer (log.window.edge? .newer)).length + 0 :=
          Nat.add_comm _ _
        _ = (session.movedBy [.push message, .deliver reply]).added.newer := by
          rw [movedBy_pair_newer, (before.leaves anchored).added_moved]
          exact congrArg _ pushFirst.added_moved.symm
    rw [anchored.indexShift_run replyAdmitted (by simp [Operation.KeepsFile]),
      anchored.indexShift_run pushAdmitted (by simp [Operation.KeepsFile]),
      records, appended]

end

/-- A window holds records and the reply to a request for older ones is merged.
A push is then refused before the reply exactly if it is refused after it, for
the same reason, and the reply is merged after the push as well.  Both orders
come to the same records, the same flags and the same shift. -/
theorem Reachable.reply_and_push_commute {fetchLimit : Nat}
    {bound : Option Nat} {session : Session}
    (reachable : Reachable fetchLimit bound session)
    (bounded : bound ≠ some 0) (holding : session.records ≠ [])
    {reply : Reply} (made : reply.request ∈ session.sent)
    (merges : session.merges reply = true) (message : Message) :
    (∀ error, ((session.deliver reply).2.push message).1 = .error error ↔
      (session.push message).1 = .error error) ∧
    (session.push message).2.merges reply = true ∧
    (session.run [.deliver reply, .push message]).records =
      (session.run [.push message, .deliver reply]).records ∧
    (session.run [.deliver reply, .push message]).view.reached =
      (session.run [.push message, .deliver reply]).view.reached ∧
    (session.movedBy [.deliver reply, .push message]).indexShift =
      (session.movedBy [.push message, .deliver reply]).indexShift := by
  have anchored := reachable.anchored bounded
  obtain ⟨log, answer, older, merging⟩ := mergesPage_of_merges merges
  have opened := merging.awaits.opened
  rw [anchored.sound.records_of_opened opened] at holding
  have live := (anchored.tailing log opened).live holding
  obtain ⟨afterReply, replyOpened, name, _, _⟩ :=
    (merging.leaves anchored made).left
  have agree := merging.agreeAt_newer anchored made holding replyOpened
  rcases push_alike opened replyOpened name live agree message with
    ⟨error, before, after⟩ | ⟨newer, before, after⟩
  · have commute := commute_of_refused before after
    refine ⟨?_, ?_, commute.records, commute.reached, commute.indexShift⟩
    · intro other
      have refusedAfter : ((session.deliver reply).2.push message).1 =
          .error error := congrArg Prod.fst after
      rw [before, refusedAfter]
    · rw [before]
      exact merges
  · obtain ⟨mergesAfter, commute⟩ := anchored.commute_of_merged made merging
      holding replyOpened before after
    refine ⟨?_, mergesAfter, commute.records, commute.reached,
      commute.indexShift⟩
    intro error
    obtain ⟨first, takenBefore, _⟩ := (before.leaves anchored).taken
    obtain ⟨second, takenAfter, _⟩ :=
      (after.leaves (anchored.perform (.deliver reply) made)).taken
    have accepted : (session.push message).1 = .ok first :=
      Option.some.inj takenBefore
    have acceptedAfter : ((session.deliver reply).2.push message).1 =
        .ok second := Option.some.inj takenAfter
    simp [accepted, acceptedAfter]

/-- The last two records of a file were read and older ones are asked for. -/
def askedBack : List Operation :=
  openedAtEnd ++ [.requestMore .older]

/-- The two records before those. -/
def readBack : Reply :=
  { request := {
      id := 2, epoch := 1, file := { name := "app.log" }, edge := .older
      anchor := some 4, limit := 2, token := ⟨1⟩ }
    result := .ok {
      source := some { name := "app.log" }
      records := [{ position := 2 }, { position := 3 }] } }

/-- Of six records the last three remain, also if the push comes before the
reply. -/
theorem Reachable.commute_beyond_bound :
    (((new 2 (some 3)).run askedBack).run [
        .push { records := [{ position := 6 }, { position := 7 }] },
        .deliver readBack]).records =
      [{ position := 5 }, { position := 6 }, { position := 7 }] ∧
    (((new 2 (some 3)).run askedBack).movedBy [
        .push { records := [{ position := 6 }, { position := 7 }] },
        .deliver readBack]).indexShift = -1 := by
  have reachable : Reachable 2 (some 3) ((new 2 (some 3)).run askedBack) :=
    ⟨askedBack, by decide, rfl⟩
  have made : readBack.request ∈ ((new 2 (some 3)).run askedBack).sent := by
    decide
  have merges : ((new 2 (some 3)).run askedBack).merges readBack = true := by
    decide
  obtain ⟨_, _, records, _, shift⟩ := reachable.reply_and_push_commute
    (by decide) (by decide) made merges
    { records := [{ position := 6 }, { position := 7 }] }
  rw [← records, ← shift]
  decide

end Session
end LogPager
