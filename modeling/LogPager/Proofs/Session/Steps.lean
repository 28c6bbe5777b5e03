import LogPager.Proofs.Request.Slots
import LogPager.Proofs.Window.Editing
import LogPager.Proofs.Window.Merging
import LogPager.Session.Basic

/-!
# What one step of a session comes to

Each operation of a session has few endings.  Asking for records is refused or
makes one request.  A reply is dropped, only frees its slot, is asked for again
after a gap, or is merged.  A pushed message is refused, ignored or merged.
The relations below list these endings with the conditions under which they
occur; later proofs go by cases on them.
-/

namespace LogPager

namespace Session

/-- The session after the slot of an edge was freed. -/
def freed (session : Session) (edge : Edge) (status : SlotStatus) : Session :=
  { session with slots := session.slots.freed edge status }

/-- The session with a fresh window on a file in place of the open one, before
anything is asked for. -/
def reopened (session : Session) (file : FileRef) : Session :=
  { session with
    slots := session.slots.cancelAll
    opened := some { file, window := .continuing session.view.versions }
    retired := session.view.versions }.publish

theorem opened_settleWindow (session : Session) (log : OpenLog)
    (grown : Edge) (movement : Movement) :
    (session.settleWindow log grown movement).2.opened =
      some { log with
        window := (log.window.enforceBound session.bound grown
          session.slots.isInFlight movement).2 } := rfl

@[simp] theorem fst_settleWindow (session : Session) (log : OpenLog)
    (grown : Edge) (movement : Movement) :
    (session.settleWindow log grown movement).1 =
      (log.window.enforceBound session.bound grown session.slots.isInFlight
        movement).1 := rfl

/-- While a window that holds anything holds the live end, only older records are
asked for: the last of the file if none is held, and else those before the oldest
held one, unless the window is full. -/
theorem target?_of_live {session : Session} {window : Window}
    (live : window.isEmpty = false → window.reached.newer = true)
    {edge toward : Edge} {anchor : Option Nat}
    (found : session.target? window edge = some (toward, anchor, false)) :
    toward = .older ∧ window.reached.older = false ∧
      (window.isEmpty = true ∧ anchor = none ∨
        window.isEmpty = false ∧ anchor = window.edge? .older ∧
          window.isFull session.bound = false) := by
  unfold target? at found
  cases empty : window.isEmpty with
  | true =>
      simp only [empty, if_true] at found
      split at found
      · cases found
      · simp only [Option.some.injEq, Prod.mk.injEq] at found
        obtain ⟨rfl, rfl, reached⟩ := found
        exact ⟨rfl, reached, .inl ⟨rfl, rfl⟩⟩
  | false =>
      simp only [empty, live empty, Bool.false_eq_true, if_false,
        Bool.and_true] at found
      split at found
      · cases found
      · rename_i room
        simp only [Option.some.injEq, Prod.mk.injEq] at found
        obtain ⟨rfl, rfl, reached⟩ := found
        cases edge with
        | older => exact ⟨rfl, reached, .inr ⟨rfl, rfl, by simpa using room⟩⟩
        | newer =>
            rw [PerEdge.get, live empty] at reached
            cases reached

/-- The endings of a request for more records. -/
inductive Requested (session : Session) (edge : Edge) : Bool → Session → Prop where
  | refused
      (settled : ∀ log, session.opened = some log →
        ∀ toward anchor reached,
          session.target? log.window edge = some (toward, anchor, reached) →
            reached = true ∨ session.slots.isInFlight toward = true) :
      Requested session edge false session
  | made {log : OpenLog} {toward : Edge} {anchor : Option Nat}
      (opened : session.opened = some log)
      (target : session.target? log.window edge = some (toward, anchor, false))
      (free : session.slots.isInFlight toward = false) :
      Requested session edge true
        { session with
          slots := session.slots.occupied toward
          sent := session.sent ++
            [session.slots.nextRequest log.file toward anchor session.fetchLimit] }

theorem requested (session : Session) (edge : Edge) :
    session.Requested edge (session.requestMore edge).1
      (session.requestMore edge).2 := by
  cases opened : session.opened with
  | none =>
      have step : session.requestMore edge = (false, session) := by
        simp [requestMore, opened]
      rw [step]
      exact .refused (by simp [opened])
  | some log =>
      cases target : session.target? log.window edge with
      | none =>
          have step : session.requestMore edge = (false, session) := by
            simp [requestMore, opened, target]
          rw [step]
          exact .refused (by simp_all)
      | some found =>
          obtain ⟨toward, anchor, reached⟩ := found
          by_cases settled :
              reached = true ∨ session.slots.isInFlight toward = true
          · have step : session.requestMore edge = (false, session) := by
              simp [requestMore, opened, target, Slots.issue_eq, settled]
            rw [step]
            apply Requested.refused
            intro other same toward anchor reached found
            cases opened.symm.trans same
            cases target.symm.trans found
            exact settled
          · have step : session.requestMore edge = (true,
                { session with
                  slots := session.slots.occupied toward
                  sent := session.sent ++ [session.slots.nextRequest log.file
                    toward anchor session.fetchLimit] }) := by
              simp [requestMore, opened, target, Slots.issue_eq, settled]
            rw [step]
            obtain ⟨notReached, free⟩ := not_or.mp settled
            exact .made opened (by simpa [notReached] using target)
              (by simpa using free)

theorem Requested.opened_eq {session after : Session} {edge : Edge}
    {made : Bool} (requested : session.Requested edge made after) :
    after.opened = session.opened := by
  cases requested <;> rfl

theorem requested_openFile (session : Session) (file : FileRef) :
    (session.reopened file).Requested .older (session.openFile file).1
      (session.openFile file).2 :=
  (session.reopened file).requested .older

/-- A request waits for its reply: its file is open, no file was opened or
closed since it was made, and it holds its slot. -/
structure Awaits (session : Session) (request : Request) (log : OpenLog) :
    Prop where
  opened : session.opened = some log
  file : request.file.sameFile log.file = true
  epoch : request.epoch = session.slots.epoch
  holds : session.slots.holds request = true

/-- What the request of a reply said about the page of a message. -/
def fetchedBy (request : Request) (message : Message) : Fetched :=
  { edge := request.edge
    limit := request.limit
    boundary := message.boundary
    unanchored := request.anchor.isNone }

/-- The replies that free the slot of their request and do nothing more, each
with its outcome and the status it leaves. -/
inductive Discards (log : OpenLog) (reply : Reply) :
    Except SessionError Movement → SlotStatus → Prop where
  | failed {error : ReadError} (result : reply.result = .error error) :
      Discards log reply (.error (.read error)) (.failed error)
  | foreclosed {message : Message} (result : reply.result = .ok message)
      (reached : log.window.reached.get reply.request.edge = true) :
      Discards log reply
        (.error (.stale (.foreclosedBoundary reply.request.edge))) .idle
  | keepalive {message : Message} (result : reply.result = .ok message)
      (source : message.source = none) :
      Discards log reply (.ok {}) .idle
  | foreign {message : Message} {source : FileRef}
      (result : reply.result = .ok message)
      (tagged : message.source = some source)
      (other : source.sameFile log.file = false) :
      Discards log reply (.error (.stale .supersededFile)) .idle
  | unordered {message : Message} {position : Nat}
      (result : reply.result = .ok message)
      (order : Page.firstUnordered? message.records = some position) :
      Discards log reply (.error (.splice (.unordered position))) .idle

/-- The endings of a delivery. -/
inductive Delivered (session : Session) (reply : Reply) :
    Except SessionError Movement → Session → Prop where
  | dropped {stale : StaleReply}
      (unwanted : ∀ log, ¬session.Awaits reply.request log)
      (late : ∀ edge, stale ≠ .foreclosedBoundary edge) :
      Delivered session reply (.error (.stale stale)) session
  | discarded {log : OpenLog} {outcome : Except SessionError Movement}
      {status : SlotStatus}
      (awaits : session.Awaits reply.request log)
      (discards : Discards log reply outcome status) :
      Delivered session reply outcome
        (session.freed reply.request.edge status)
  | refetched {log : OpenLog} {message : Message} {source : FileRef}
      {page : Page} {held received : Nat}
      (awaits : session.Awaits reply.request log)
      (open_ : log.window.reached.get reply.request.edge = false)
      (result : reply.result = .ok message)
      (tagged : message.source = some source)
      (paged : Page.ofRecords source.name message.records = .ok page)
      (gap : log.window.mergeFetched page (fetchedBy reply.request message) =
        .error (.gap reply.request.edge held received)) :
      Delivered session reply
        (.error (.splice (.gap reply.request.edge held received)))
        ((session.freed reply.request.edge .idle).requestMore
          reply.request.edge).2
  | merged {log : OpenLog} {message : Message} {source : FileRef}
      {page : Page} {movement : Movement} {window : Window}
      (awaits : session.Awaits reply.request log)
      (open_ : log.window.reached.get reply.request.edge = false)
      (result : reply.result = .ok message)
      (tagged : message.source = some source)
      (same : source.sameFile log.file = true)
      (paged : Page.ofRecords source.name message.records = .ok page)
      (merged : log.window.mergeFetched page (fetchedBy reply.request message) =
        .ok (movement, window)) :
      Delivered session reply
        (.ok ((session.freed reply.request.edge .idle).settleWindow
          { file := { log.file with cursor := source.cursor }, window }
          reply.request.edge movement).1)
        ((session.freed reply.request.edge .idle).settleWindow
          { file := { log.file with cursor := source.cursor }, window }
          reply.request.edge movement).2

theorem deliver_of_not_awaits {session : Session} {reply : Reply}
    (unwanted : ∀ log, ¬session.Awaits reply.request log) :
    ∃ stale, (∀ edge, stale ≠ .foreclosedBoundary edge) ∧
      session.deliver reply = (.error (.stale stale), session) := by
  cases opened : session.opened with
  | none => exact ⟨.closed, by simp, by simp [deliver, opened]⟩
  | some log =>
      by_cases file : reply.request.file.sameFile log.file = true
      · have refused : ∀ status, ∃ stale,
            (∀ edge, stale ≠ .foreclosedBoundary edge) ∧
              session.slots.release reply.request status = .error stale := by
          intro status
          rw [Slots.release_eq]
          split
          · rename_i epoch
            split
            · rename_i holds
              exact (unwanted log ⟨opened, file, epoch, holds⟩).elim
            · exact ⟨_, by simp, rfl⟩
          · exact ⟨_, by simp, rfl⟩
        cases result : reply.result with
        | error error =>
            obtain ⟨stale, late, released⟩ := refused (.failed error)
            exact ⟨stale, late, by
              simp [deliver, opened, file, result, Slots.fail, released]⟩
        | ok message =>
            obtain ⟨stale, late, released⟩ := refused .idle
            refine ⟨stale, late, ?_⟩
            simp [deliver, opened, file, result, Slots.accept, released]
            rw [← opened]
      · exact ⟨.supersededFile, by simp, by simp [deliver, opened, file]⟩

private theorem deliver_error_of_awaits {session : Session} {reply : Reply}
    {log : OpenLog} {error : ReadError}
    (awaits : session.Awaits reply.request log)
    (result : reply.result = .error error) :
    session.deliver reply =
      (.error (.read error), session.freed reply.request.edge (.failed error)) := by
  simp [deliver, awaits.opened, awaits.file, result, Slots.fail,
    Slots.release_eq, awaits.epoch, awaits.holds, freed]

private theorem deliver_ok_of_awaits {session : Session} {reply : Reply}
    {log : OpenLog} {message : Message}
    (awaits : session.Awaits reply.request log)
    (result : reply.result = .ok message) :
    session.deliver reply =
      if log.window.reached.get reply.request.edge then
        (.error (.stale (.foreclosedBoundary reply.request.edge)),
          session.freed reply.request.edge .idle)
      else
        match message.source with
        | none => (.ok {}, session.freed reply.request.edge .idle)
        | some source =>
            if source.sameFile log.file then
              (session.freed reply.request.edge .idle).mergeReply log
                reply.request source message
            else (.error (.stale .supersededFile),
              session.freed reply.request.edge .idle) := by
  cases reached : log.window.reached.get reply.request.edge with
  | true =>
      simp [deliver, awaits.opened, awaits.file, result, Slots.accept,
        Slots.release_eq, awaits.epoch, awaits.holds, freed, reached]
  | false =>
      have accepted :
          session.slots.accept reply.request false =
            (.ok (), session.slots.freed reply.request.edge .idle) := by
        simp [Slots.accept, Slots.release_eq, awaits.epoch, awaits.holds]
      cases source : message.source with
      | none =>
          simp [deliver, awaits.opened, awaits.file, result, reached,
            accepted, source, freed]
      | some source =>
          simp [deliver, awaits.opened, awaits.file, result, reached,
            accepted, source, freed]

private theorem with_opened {session : Session} {log : OpenLog}
    (opened : session.opened = some log) :
    { session with opened := some log } = session := by
  rw [← opened]

private theorem mergeReply_eq {session : Session} {log : OpenLog}
    (opened : session.opened = some log) (request : Request)
    (source : FileRef) (message : Message) :
    session.mergeReply log request source message =
      match Page.ofRecords source.name message.records >>=
          (log.window.mergeFetched · (fetchedBy request message)) with
      | .ok (movement, window) =>
          (.ok (session.settleWindow
              { file := { log.file with cursor := source.cursor }, window }
              request.edge movement).1,
            (session.settleWindow
              { file := { log.file with cursor := source.cursor }, window }
              request.edge movement).2)
      | .error error =>
          (.error (.splice error), match error with
            | .gap .. => (session.requestMore request.edge).2
            | .unordered .. => session) := by
  have merged := Window.Edit.apply_lift_bind
    (Page.ofRecords source.name message.records) log.window fun page =>
      Window.Edit.apply_mergeFetched page (fetchedBy request message) log.window
  simp only [fetchedBy] at merged ⊢
  unfold mergeReply
  dsimp only
  rw [merged]
  rcases Page.ofRecords source.name message.records >>= _ with
    error | ⟨movement, window⟩
  · simp only [Window.Edit.settled, with_opened opened]
    cases error <;> rfl
  · rfl

private theorem delivered_of_mergeReply {session : Session} {reply : Reply}
    {log : OpenLog} {message : Message} {source : FileRef}
    (awaits : session.Awaits reply.request log)
    (open_ : log.window.reached.get reply.request.edge = false)
    (result : reply.result = .ok message)
    (tagged : message.source = some source)
    (same : source.sameFile log.file = true) :
    let step := (session.freed reply.request.edge .idle).mergeReply log
      reply.request source message
    session.Delivered reply step.1 step.2 := by
  intro step
  have opened : (session.freed reply.request.edge .idle).opened = some log :=
    awaits.opened
  have settles := mergeReply_eq opened reply.request source message
  cases order : Page.firstUnordered? message.records with
  | some position =>
      have paged : Page.ofRecords source.name message.records =
          .error (.unordered position) :=
        Page.ofRecords_of_unordered _ order
      have ending : step = (.error (.splice (.unordered position)),
          session.freed reply.request.edge .idle) := by
        rw [paged] at settles
        exact settles
      rw [ending]
      exact .discarded awaits (.unordered result order)
  | none =>
      have ordered := Page.firstUnordered?_eq_none_iff.mp order
      have paged := Page.ofRecords_of_ordered source.name ordered
      cases merged : log.window.mergeFetched
          { file := source.name, records := message.records, ordered }
          (fetchedBy reply.request message) with
      | error error =>
          obtain ⟨held, received, rfl⟩ := Window.mergeFetched_error merged
          have ending : step =
              (.error (.splice (.gap reply.request.edge held received)),
                ((session.freed reply.request.edge .idle).requestMore
                  reply.request.edge).2) := by
            simp only [paged, bind, Except.bind, merged] at settles
            exact settles
          rw [ending]
          exact .refetched awaits open_ result tagged paged merged
      | ok grown =>
          obtain ⟨movement, window⟩ := grown
          have ending : step =
              (.ok ((session.freed reply.request.edge .idle).settleWindow
                  { file := { log.file with cursor := source.cursor }, window }
                  reply.request.edge movement).1,
                ((session.freed reply.request.edge .idle).settleWindow
                  { file := { log.file with cursor := source.cursor }, window }
                  reply.request.edge movement).2) := by
            simp only [paged, bind, Except.bind, merged] at settles
            exact settles
          rw [ending]
          exact .merged awaits open_ result tagged same paged merged

theorem deliver_eq_of_merged {session : Session} {reply : Reply}
    {log : OpenLog} {message : Message} {source : FileRef} {page : Page}
    {movement : Movement} {window : Window}
    (awaits : session.Awaits reply.request log)
    (open_ : log.window.reached.get reply.request.edge = false)
    (result : reply.result = .ok message)
    (tagged : message.source = some source)
    (same : source.sameFile log.file = true)
    (paged : Page.ofRecords source.name message.records = .ok page)
    (merged : log.window.mergeFetched page (fetchedBy reply.request message) =
      .ok (movement, window)) :
    session.deliver reply =
      (.ok ((session.freed reply.request.edge .idle).settleWindow
          { file := { log.file with cursor := source.cursor }, window }
          reply.request.edge movement).1,
        ((session.freed reply.request.edge .idle).settleWindow
          { file := { log.file with cursor := source.cursor }, window }
          reply.request.edge movement).2) := by
  have opened : (session.freed reply.request.edge .idle).opened = some log :=
    awaits.opened
  rw [deliver_ok_of_awaits awaits result]
  simp only [open_, tagged, same, Bool.false_eq_true, if_false, if_true]
  rw [mergeReply_eq opened]
  simp only [paged, bind, Except.bind, merged]

theorem delivered (session : Session) (reply : Reply) :
    session.Delivered reply (session.deliver reply).1
      (session.deliver reply).2 := by
  by_cases wanted : ∃ log, session.Awaits reply.request log
  · obtain ⟨log, awaits⟩ := wanted
    cases result : reply.result with
    | error error =>
        rw [deliver_error_of_awaits awaits result]
        exact .discarded awaits (.failed result)
    | ok message =>
        rw [deliver_ok_of_awaits awaits result]
        cases reached : log.window.reached.get reply.request.edge with
        | true => exact .discarded awaits (.foreclosed result reached)
        | false =>
            cases tagged : message.source with
            | none => exact .discarded awaits (.keepalive result tagged)
            | some source =>
                simp only [Bool.false_eq_true, if_false]
                cases same : source.sameFile log.file with
                | false =>
                    exact .discarded awaits (.foreign result tagged same)
                | true =>
                    exact delivered_of_mergeReply awaits reached result tagged
                      same
  · obtain ⟨stale, late, step⟩ :=
      deliver_of_not_awaits fun log awaits => wanted ⟨log, awaits⟩
    rw [step]
    exact .dropped (fun log awaits => wanted ⟨log, awaits⟩) late

/-- The endings of a push. -/
inductive Pushed (session : Session) (message : Message) :
    Except SessionError Movement → Session → Prop where
  | closed (opened : session.opened = none) :
      Pushed session message (.error (.stale .closed)) session
  | foreign {log : OpenLog} {source : FileRef}
      (opened : session.opened = some log)
      (tagged : message.source = some source)
      (other : source.sameFile log.file = false) :
      Pushed session message (.error (.stale .supersededFile)) session
  | ignored {log : OpenLog} (opened : session.opened = some log)
      (away : log.window.reached.newer = false) :
      Pushed session message (.ok {}) session
  | unordered {log : OpenLog} {position : Nat}
      (opened : session.opened = some log)
      (order : Page.firstUnordered? message.records = some position) :
      Pushed session message (.error (.splice (.unordered position))) session
  | unmerged {log : OpenLog} {page : Page} {error : SpliceError}
      (opened : session.opened = some log)
      (same : ∀ source, message.source = some source →
        source.sameFile log.file = true)
      (live : log.window.reached.newer = true)
      (paged : Page.ofRecords log.file.name message.records = .ok page)
      (failed : log.window.mergeLive page = .error error) :
      Pushed session message (.error (.splice error)) session
  | merged {log : OpenLog} {page : Page} {movement : Movement}
      {window : Window}
      (opened : session.opened = some log)
      (same : ∀ source, message.source = some source →
        source.sameFile log.file = true)
      (live : log.window.reached.newer = true)
      (paged : Page.ofRecords log.file.name message.records = .ok page)
      (merged : log.window.mergeLive page = .ok (movement, window)) :
      Pushed session message
        (.ok (session.settleWindow
          { file := { log.file with
              cursor := message.source.elim log.file.cursor (·.cursor) }
            window } .newer movement).1)
        (session.settleWindow
          { file := { log.file with
              cursor := message.source.elim log.file.cursor (·.cursor) }
            window } .newer movement).2

private theorem foreign_eq_false_iff {message : Message} {file : FileRef} :
    (message.source.any fun source => !source.sameFile file) = false ↔
      ∀ source, message.source = some source → source.sameFile file = true := by
  cases message.source <;> simp

theorem push_eq_of_live {session : Session} {message : Message}
    {log : OpenLog} (opened : session.opened = some log)
    (same : ∀ source, message.source = some source →
      source.sameFile log.file = true)
    (live : log.window.reached.newer = true) :
    session.push message =
      match Page.ofRecords log.file.name message.records >>=
          log.window.mergeLive with
      | .ok (movement, window) =>
          (.ok (session.settleWindow
              { file := { log.file with
                  cursor := message.source.elim log.file.cursor (·.cursor) }
                window } .newer movement).1,
            (session.settleWindow
              { file := { log.file with
                  cursor := message.source.elim log.file.cursor (·.cursor) }
                window } .newer movement).2)
      | .error error => (.error (.splice error), session) := by
  have merged := Window.Edit.apply_lift_bind
    (Page.ofRecords log.file.name message.records) log.window fun page =>
      Window.Edit.apply_mergeLive page log.window
  simp only [push, opened, foreign_eq_false_iff.mpr same, live,
    Bool.false_eq_true, if_false, Bool.not_true]
  rw [merged]
  rcases Page.ofRecords log.file.name message.records >>= log.window.mergeLive with
    error | ⟨movement, window⟩
  · simp only [Window.Edit.settled, with_opened opened]
  · rfl

theorem pushed (session : Session) (message : Message) :
    session.Pushed message (session.push message).1
      (session.push message).2 := by
  cases opened : session.opened with
  | none =>
      have step : session.push message = (.error (.stale .closed), session) := by
        simp [push, opened]
      rw [step]
      exact .closed opened
  | some log =>
      by_cases other : ∃ source, message.source = some source ∧
          source.sameFile log.file = false
      · obtain ⟨source, tagged, other⟩ := other
        have step : session.push message =
            (.error (.stale .supersededFile), session) := by
          simp [push, opened, tagged, other]
        rw [step]
        exact .foreign opened tagged other
      · have same : ∀ source, message.source = some source →
            source.sameFile log.file = true := by
          intro source tagged
          cases equal : source.sameFile log.file with
          | true => rfl
          | false => exact (other ⟨source, tagged, equal⟩).elim
        cases live : log.window.reached.newer with
        | false =>
            have step : session.push message = (.ok {}, session) := by
              simp only [push, opened, foreign_eq_false_iff.mpr same, live]
              rfl
            rw [step]
            exact .ignored opened live
        | true =>
            rw [push_eq_of_live opened same live]
            cases order : Page.firstUnordered? message.records with
            | some position =>
                rw [Page.ofRecords_of_unordered _ order]
                exact .unordered opened order
            | none =>
                have ordered := Page.firstUnordered?_eq_none_iff.mp order
                have paged := Page.ofRecords_of_ordered log.file.name ordered
                rw [paged]
                cases merged : log.window.mergeLive
                    { file := log.file.name, records := message.records,
                      ordered } with
                | error error =>
                    simp only [bind, Except.bind, merged]
                    exact .unmerged opened same live paged merged
                | ok grown =>
                    obtain ⟨movement, window⟩ := grown
                    simp only [bind, Except.bind, merged]
                    exact .merged opened same live paged merged

end Session
end LogPager
