import LogPager.Proofs.Session.Commuting
import LogPager.Proofs.Session.Faithful
import LogPager.Session.LiveTail

/-!
# Paging back through a file

While a file stays as it is, a session that asks for older records shows all
records from some line to the end of the file.  Each answer moves this line back
by the number of records that were asked for, as far as the file and the bound
allow, and tells whether the start of the file was reached.
-/

namespace LogPager

theorem position_head?_drop_fileRecords (data : List UInt8) (first : Nat) :
    (((fileRecords data).drop first).head?.map (·.position)).getD
      (fileRecords data).length =
        min first (fileRecords data).length := by
  rw [List.head?_drop]
  cases found : (fileRecords data)[first]? with
  | none =>
      have beyond := List.getElem?_eq_none_iff.mp found
      rw [Option.map_none, Option.getD_none, Nat.min_eq_right beyond]
  | some record =>
      have inside := (List.getElem?_eq_some_iff.mp found).1
      rw [Option.map_some, Option.getD_some,
        position_of_getElem?_fileRecords found,
        Nat.min_eq_left (Nat.le_of_lt inside)]

theorem LineRange.slice_append_drop {items : List α} {start stop : Nat}
    (ordered : start ≤ stop) (inside : stop ≤ items.length) :
    slice { start, stop } items ++ items.drop stop = items.drop start := by
  have joined := List.take_append_drop stop items
  have begins : start ≤ (items.take stop).length := by
    rw [List.length_take]
    omega
  rw [slice, ← List.drop_append_of_le_length begins, joined]

/-- What a file with the given contents answers to a request. -/
def Request.answerFrom (request : Request) (data : List UInt8) : Message :=
  { source := some {
      name := request.file.name
      cursor := toString (bytesOfLines (completeLines data)).length }
    records := (LineRange.select (fileRecords data).length request.edge
      request.anchor request.limit).1.slice (fileRecords data)
    boundary := (LineRange.select (fileRecords data).length request.edge
      request.anchor request.limit).2 }

namespace Window

/-- The first of the records that remain when the bound is kept. -/
def firstKept (bound : Option Nat) (total first : Nat) : Nat :=
  max first (bound.elim 0 (total - ·))

theorem firstKept_le (bound : Option Nat) {total first : Nat}
    (inside : first ≤ total) : firstKept bound total first ≤ total := by
  unfold firstKept
  cases bound with
  | none => exact Nat.max_le.mpr ⟨inside, Nat.zero_le _⟩
  | some most => exact Nat.max_le.mpr ⟨inside, Nat.sub_le _ _⟩

/-- A bound with room for the last records cuts nothing of them. -/
theorem firstKept_le_max {bound : Option Nat} {wanted : Nat}
    (roomy : ∀ most, bound = some most → wanted ≤ most) (total first : Nat) :
    firstKept bound total first ≤ max first (total - wanted) := by
  unfold firstKept
  cases bound with
  | none =>
      simp only [Option.elim_none]
      omega
  | some most =>
      have room := roomy most rfl
      simp only [Option.elim_some]
      omega

theorem newest_drop (bound : Option Nat) (items : List Record) (first : Nat) :
    newest bound (items.drop first) =
      items.drop (firstKept bound items.length first) := by
  cases bound with
  | none => simp [newest, firstKept]
  | some most =>
      simp only [newest, firstKept, Option.elim_some, List.length_drop,
        List.drop_drop]
      congr 1
      omega

end Window

namespace Session

theorem mem_waiting {session : Session} {request : Request} :
    request ∈ session.waiting ↔
      request ∈ session.sent ∧ request.epoch = session.slots.epoch ∧
        session.slots.holds request = true := by
  simp [waiting]

theorem Anchored.exists_waiting {session : Session}
    (anchored : session.Anchored)
    (flying : session.slots.isInFlight .older = true) :
    ∃ request, request ∈ session.waiting := by
  obtain ⟨_, request, made, _, _, holds⟩ := anchored.older_holder flying
  obtain ⟨_, awaits⟩ := anchored.tracked.awaits made holds
  exact ⟨request, mem_waiting.mpr ⟨made, awaits.epoch, holds⟩⟩

theorem Anchored.isInFlight_of_waiting {session : Session}
    (anchored : session.Anchored) {request : Request}
    (waits : request ∈ session.waiting) :
    session.slots.isInFlight .older = true := by
  obtain ⟨made, _, holds⟩ := mem_waiting.mp waits
  exact anchored.isInFlight_of_holds made holds

theorem Anchored.waiting_eq_nil {session : Session}
    (anchored : session.Anchored)
    (idle : session.slots.isInFlight .older = false) : session.waiting = [] := by
  rw [List.eq_nil_iff_forall_not_mem]
  intro request waits
  have flying := anchored.isInFlight_of_waiting waits
  rw [idle] at flying
  cases flying

theorem settle_of_waiting_nil {session : Session}
    (none : session.waiting = [])
    (answer : σ → Request → Except ReadError Message × σ) (rounds : Nat)
    (source : σ) (total : Movement) :
    session.settle answer rounds source total = (total, source, session) := by
  cases rounds with
  | zero => rfl
  | succ rounds => rw [settle, answerOne, none]

theorem Anchored.answerOne_eq {session : Session} (anchored : session.Anchored)
    {request : Request} (waits : request ∈ session.waiting)
    (answer : σ → Request → Except ReadError Message × σ) (source : σ) :
    session.answerOne answer source =
      let reply := { request, result := (answer source request).1 }
      some ((session.deliver reply).1, (answer source request).2,
        (session.deliver reply).2) := by
  cases waiting : session.waiting with
  | nil =>
      rw [waiting] at waits
      cases waits
  | cons first rest =>
      have begins : first ∈ session.waiting := by
        rw [waiting]
        exact List.mem_cons_self
      obtain ⟨made, _, holds⟩ := mem_waiting.mp waits
      obtain ⟨firstMade, _, firstHolds⟩ := mem_waiting.mp begins
      cases anchored.eq_of_holds firstMade made firstHolds holds
      rw [answerOne, waiting]

/-- The open file shows its records from a line on. -/
structure ShowsFrom (session : Session) (contents : String → List UInt8)
    (name : String) (first : Nat) : Prop where
  faithful : session.Faithful contents
  opened : ∃ log, session.opened = some log ∧ log.file.name = name
  inside : first ≤ (fileRecords (contents name)).length
  records : session.records = (fileRecords (contents name)).drop first

namespace ShowsFrom

variable {session : Session} {contents : String → List UInt8} {name : String}
  {first : Nat}

theorem held_eq (shows : session.ShowsFrom contents name first) :
    session.held = (fileRecords (contents name)).length - first := by
  rw [shows.faithful.anchored.sound.held_eq, shows.records, List.length_drop]

theorem select_eq (shows : session.ShowsFrom contents name first)
    {request : Request} (made : request ∈ session.sent)
    (holds : session.slots.holds request = true) (limit : Nat) :
    LineRange.select (fileRecords (contents name)).length request.edge
        request.anchor limit =
      ({ start := first - limit, stop := first }, first - limit == 0) := by
  have anchored := shows.faithful.anchored
  obtain ⟨log, awaits⟩ := anchored.tracked.awaits made holds
  have sound := (anchored.tailing log awaits.opened).sound
  have anchor : request.anchor =
      ((fileRecords (contents name)).drop first).head?.map (·.position) := by
    rw [(anchored.anchor request made holds log awaits.opened).1,
      sound.edge?_eq, ← anchored.sound.records_of_opened awaits.opened,
      shows.records]
    rfl
  have stop := position_head?_drop_fileRecords (contents name) first
  rw [Nat.min_eq_left shows.inside] at stop
  rw [anchored.older request made, anchor]
  simp only [LineRange.select, stop, Nat.min_eq_left shows.inside]

theorem name_of_waiting (shows : session.ShowsFrom contents name first)
    {request : Request} (waits : request ∈ session.waiting) :
    request.file.name = name := by
  obtain ⟨made, _, holds⟩ := mem_waiting.mp waits
  obtain ⟨log, awaits⟩ :=
    shows.faithful.anchored.tracked.awaits made holds
  obtain ⟨other, opened, named⟩ := shows.opened
  cases awaits.opened.symm.trans opened
  exact (FileRef.sameFile_iff.mp awaits.file).trans named

/-- What the file answers serves the request. -/
theorem serves (shows : session.ShowsFrom contents name first)
    {request : Request} (waits : request ∈ session.waiting) :
    Reply.Serves { request, result := .ok (request.answerFrom (contents name)) }
      contents (request.answerFrom (contents name))
      (fileRecords (contents name)).length := by
  obtain ⟨made, _⟩ := mem_waiting.mp waits
  have same := shows.name_of_waiting waits
  have placed := shows.faithful.placed request made
  rw [same] at placed
  refine ⟨⟨_, rfl⟩, ?_, placed, ?_⟩
  · rw [same]
  · rw [same]
    rfl

/-- What the file answers is merged, and none of its records is held before. -/
theorem mergesPage (shows : session.ShowsFrom contents name first)
    {request : Request} (waits : request ∈ session.waiting) :
    let message := request.answerFrom (contents name)
    ∃ log page, session.MergesPage { request, result := .ok message } log
        message page ∧
      log.file.name = name ∧ page.records = message.records ∧
      page.beyond .older (log.window.edge? .older) = message.records := by
  intro message
  have anchored := shows.faithful.anchored
  have serves := shows.serves waits
  obtain ⟨made, _, holds⟩ := mem_waiting.mp waits
  obtain ⟨log, awaits⟩ := anchored.tracked.awaits made holds
  obtain ⟨anchor, open_⟩ := anchored.anchor request made holds log awaits.opened
  have older := anchored.older request made
  obtain ⟨_, inside⟩ := LineRange.select_ordered
    (fileRecords (contents name)).length request.edge request.anchor
    request.limit
  have ordered : message.records.Pairwise Record.Before :=
    LineRange.ordered_slice inside
  obtain ⟨page, paged⟩ : ∃ page,
      Page.ofRecords request.file.name message.records = .ok page :=
    ⟨_, Page.ofRecords_of_ordered request.file.name ordered⟩
  have same := Page.records_of_ofRecords paged
  obtain ⟨movement, window, merged, _⟩ :=
    shows.faithful.merges made awaits serves same
  have merging : session.MergesPage { request, result := .ok message } log
      message page := by
    refine ⟨awaits, ?_, rfl, ⟨_, rfl, awaits.file, paged⟩, ⟨_, merged⟩⟩
    rw [older]
    exact open_
  refine ⟨log, page, merging, ?_, same, ?_⟩
  · have same := FileRef.sameFile_iff.mp awaits.file
    exact same.symm.trans (shows.name_of_waiting waits)
  · rw [← same]
    apply Page.beyond_eq_records
    apply Window.abuts_of_adjoins same inside
    intro position held
    have within := serves.placed position (anchor.trans held)
    rw [older, anchor.trans held]
    exact LineRange.select_adjoins within .older request.limit

end ShowsFrom

theorem MergesPage.frame {session : Session} {reply : Reply} {log : OpenLog}
    {message : Message} {page : Page}
    (merging : session.MergesPage reply log message page) :
    (session.deliver reply).2.slots =
        session.slots.freed reply.request.edge .idle ∧
      (session.deliver reply).2.sent = session.sent ∧
      (session.deliver reply).2.fetchLimit = session.fetchLimit ∧
      (session.deliver reply).2.bound = session.bound := by
  obtain ⟨_, _, _, _, step⟩ := merging.step
  rw [step]
  exact ⟨rfl, rfl, rfl, rfl⟩

theorem reaches_iff {request : Request} {message : Message} {page : Page}
    {log : OpenLog} {first : Nat} (edge : request.edge = .older)
    (open_ : log.window.reached.older = false)
    (received : page.length = first - (first - request.limit))
    (boundary : message.boundary = (first - request.limit == 0)) :
    reachedBy log.window (fetchedBy request message) page .older = true ↔
      first ≤ request.limit := by
  simp only [reachedBy, PerEdge.get, open_, Bool.false_or, Fetched.reaches,
    fetchedBy, edge, if_true, received, boundary, Bool.and_eq_true,
    Bool.or_eq_true, beq_iff_eq, decide_eq_true_eq]
  omega

namespace ShowsFrom

variable {session : Session} {contents : String → List UInt8} {name : String}
  {first : Nat}

/-- The answer from the file moves the first line that is shown back by the
number of records asked for, as far as the file and the bound allow. -/
theorem deliver (shows : session.ShowsFrom contents name first)
    {request : Request} (waits : request ∈ session.waiting) :
    let after := (session.deliver
      { request, result := .ok (request.answerFrom (contents name)) }).2
    after.ShowsFrom contents name (Window.firstKept session.bound
        (fileRecords (contents name)).length (first - request.limit)) ∧
      (after.view.reached.older = true ↔ first ≤ request.limit) ∧
      after.slots.status .older = .idle ∧
      after.slots.isInFlight .older = false := by
  intro after
  have anchored := shows.faithful.anchored
  obtain ⟨made, _, holds⟩ := mem_waiting.mp waits
  obtain ⟨log, page, merging, named, paged, beyond⟩ := shows.mergesPage waits
  have selected := shows.select_eq made holds request.limit
  have records : (request.answerFrom (contents name)).records =
      LineRange.slice { start := first - request.limit, stop := first }
        (fileRecords (contents name)) := by
    rw [Request.answerFrom, selected]
  have boundary : (request.answerFrom (contents name)).boundary =
      (first - request.limit == 0) := by
    rw [Request.answerFrom, selected]
  have leaves := merging.leaves anchored made
  have remain := leaves.records_perform anchored made
  have reached := congrFun leaves.reached_perform .older
  refine ⟨⟨?_, ?_, ?_, ?_⟩, ?_, ?_, ?_⟩
  · refine ((session.delivered _).faithful shows.faithful made ?_).1
    intro other result
    cases result
    exact ⟨_, shows.serves waits⟩
  · obtain ⟨later, left, name, _⟩ := leaves.left
    exact ⟨later, left, name.trans named⟩
  · exact Window.firstKept_le _ (Nat.le_trans (Nat.sub_le _ _) shows.inside)
  · rw [beyond, records, ← anchored.sound.records_of_opened
      merging.awaits.opened, shows.records, LineRange.slice_append_drop
      (Nat.sub_le _ _) shows.inside, Window.newest_drop] at remain
    exact remain
  · show after.view.reached.get .older = true ↔ _
    have received : page.length = first - (first - request.limit) := by
      rw [Page.length, paged, records, LineRange.length_slice shows.inside]
    have open_ :=
      (anchored.anchor request made holds log merging.awaits.opened).2
    exact (congrArg (· = true) reached).to_iff.trans (reaches_iff
      (anchored.older request made) open_ received boundary)
  · rw [show after.slots = _ from merging.frame.1, anchored.older request made]
    rfl
  · rw [show after.slots = _ from merging.frame.1, anchored.older request made]
    rfl

theorem requestMore_made (shows : session.ShowsFrom contents name first)
    (idle : session.slots.isInFlight .older = false)
    (open_ : session.view.reached.older = false)
    (holding : first < (fileRecords (contents name)).length)
    (room : ∀ most, session.bound = some most → session.held < most) :
    (session.requestMore .older).1 = true := by
  have anchored := shows.faithful.anchored
  obtain ⟨log, opened, _⟩ := shows.opened
  have tailing := anchored.tailing log opened
  have several : log.window.isEmpty = false := by
    rw [tailing.sound.isEmpty_eq_false_iff,
      ← anchored.sound.records_of_opened opened, shows.records, Ne,
      List.drop_eq_nil_iff]
    omega
  have roomy : log.window.isFull session.bound = false := by
    rw [Window.isFull, Option.any_eq_false]
    intro most given
    have under := room most given
    rw [held, opened, Option.elim_some] at under
    exact decide_eq_false (Nat.not_le.mpr under)
  have target : session.target? log.window .older =
      some (.older, log.window.edge? .older, log.window.reached.get .older) := by
    simp [target?, several, roomy]
  have requested := session.requested .older
  cases made : (session.requestMore .older).1 with
  | true => rfl
  | false =>
      rw [made] at requested
      generalize (session.requestMore .older).2 = after at requested
      cases requested with
      | refused settled =>
          rw [view_of_opened opened] at open_
          rcases settled log opened _ _ _ target with reached | flying
          · exact open_.symm.trans reached
          · exact idle.symm.trans flying

end ShowsFrom

theorem Requested.flying {session after : Session} {edge : Edge}
    (requested : session.Requested edge true after)
    (anchored : session.Anchored) :
    after.slots.isInFlight .older = true := by
  cases requested with
  | made opened target free =>
      obtain ⟨rfl, _, _⟩ := anchored.target opened target
      rfl

theorem Requested.fetchLimit_eq {session after : Session} {edge : Edge}
    {made : Bool} (requested : session.Requested edge made after) :
    after.fetchLimit = session.fetchLimit := by
  cases requested <;> rfl

theorem Requested.limits {session after : Session} {edge : Edge}
    {made : Bool} (requested : session.Requested edge made after)
    (limits : ∀ request ∈ session.sent, request.limit = session.fetchLimit) :
    ∀ request ∈ after.sent, request.limit = after.fetchLimit := by
  cases requested with
  | refused settled => exact limits
  | made opened target free =>
      intro request member
      rcases List.mem_append.mp member with earlier | new
      · exact limits request earlier
      · rw [List.mem_singleton.mp new]
        rfl

/-- A session asks for a number of records at a time, and all its requests ask
for as many. -/
def AsksFor (session : Session) (limit : Nat) : Prop :=
  session.fetchLimit = limit ∧
    ∀ request ∈ session.sent, request.limit = session.fetchLimit

namespace AsksFor

variable {session after : Session} {limit : Nat}

theorem requested {edge : Edge} {made : Bool} (asks : session.AsksFor limit)
    (requested : session.Requested edge made after) : after.AsksFor limit :=
  ⟨requested.fetchLimit_eq.trans asks.1, requested.limits asks.2⟩

theorem delivered {reply : Reply} {outcome : Except SessionError Movement}
    (asks : session.AsksFor limit)
    (delivered : session.Delivered reply outcome after) :
    after.AsksFor limit := by
  cases delivered with
  | dropped | discarded | merged => exact asks
  | refetched awaits open_ result tagged paged gap =>
      have freed : (session.freed reply.request.edge .idle).AsksFor limit := asks
      exact freed.requested (Session.requested _ reply.request.edge)

theorem pushed {message : Message} {outcome : Except SessionError Movement}
    (asks : session.AsksFor limit)
    (pushed : session.Pushed message outcome after) : after.AsksFor limit := by
  cases pushed <;> exact asks

theorem perform (asks : session.AsksFor limit) (operation : Operation) :
    (session.perform operation).AsksFor limit := by
  cases operation with
  | openFile file =>
      have reopened : (session.reopened file).AsksFor limit := asks
      exact reopened.requested (session.requested_openFile file)
  | requestMore edge => exact asks.requested (session.requested edge)
  | deliver reply => exact asks.delivered (session.delivered reply)
  | push message => exact asks.pushed (session.pushed message)
  | close | subscribe | unsubscribe | take => exact asks

end AsksFor

theorem Arises.asksFor {fetchLimit : Nat} {bound : Option Nat}
    {session : Session} (arises : Arises fetchLimit bound session) :
    session.AsksFor (max fetchLimit 1) := by
  obtain ⟨operations, rfl⟩ := arises
  have kept : ∀ (earlier : Session) operation,
      earlier.AsksFor (max fetchLimit 1) →
        (earlier.perform operation).AsksFor (max fetchLimit 1) :=
    fun _ operation asks => asks.perform operation
  have start : (new fetchLimit bound).AsksFor (max fetchLimit 1) := by
    refine ⟨rfl, ?_⟩
    intro request member
    cases member
  exact kept_run kept start operations

end Session

/-- The line maps of a folder are true to its files, and a file is found in
it. -/
structure LogFolder.Holds (folder : LogFolder) (files : FileSystem)
    (contents : String → List UInt8) (name : String) : Prop where
  maps : folder.Follows contents
  found : folder.contents? files name = some (contents name)

theorem LogFolder.Holds.fetch {folder : LogFolder} {files : FileSystem}
    {contents : String → List UInt8} {name : String}
    (holds : folder.Holds files contents name) {request : Request}
    (same : request.file.name = name) :
    (folder.fetch files request false).1 =
        .ok (request.answerFrom (contents name)) ∧
      (folder.fetch files request false).2.Holds files contents name := by
  have read := holds.maps.readContents_eq name request.edge request.anchor
    request.limit
  rw [← holds.found, ← same] at read
  have answered : folder.fetch files request false = _ := read
  rw [answered]
  subst same
  exact ⟨rfl, holds.maps.afterRead _, holds.found⟩

namespace Session

/-- A session that pages back through a file. -/
structure Pages (session : Session) (contents : String → List UInt8)
    (name : String) (first : Nat) : Prop where
  shows : session.ShowsFrom contents name first
  asks : 0 < session.fetchLimit
  limits : ∀ request ∈ session.sent, request.limit = session.fetchLimit

namespace Pages

variable {session : Session} {contents : String → List UInt8} {name : String}
  {first : Nat}

theorem requestMore (pages : session.Pages contents name first) (edge : Edge) :
    (session.requestMore edge).2.Pages contents name first := by
  have requested := session.requested edge
  have faithful := requested.faithful pages.shows.faithful
  have opened := requested.opened_eq
  refine ⟨⟨faithful, ?_, pages.shows.inside, ?_⟩, ?_, ?_⟩
  · rw [opened]
    exact pages.shows.opened
  · rw [records_eq opened]
    exact pages.shows.records
  · rw [requested.fetchLimit_eq]
    exact pages.asks
  · exact requested.limits pages.limits

/-- A round of paging: the request in flight is answered from the file, and
nothing is in flight afterwards. -/
theorem answerOne (pages : session.Pages contents name first)
    {folder : LogFolder} {files : FileSystem}
    (holds : folder.Holds files contents name)
    (flying : session.slots.isInFlight .older = true) :
    ∃ outcome next after,
      session.answerOne (fun folder request => folder.fetch files request false)
          folder = some (outcome, next, after) ∧
      next.Holds files contents name ∧
      after.Pages contents name (Window.firstKept session.bound
        (fileRecords (contents name)).length (first - session.fetchLimit)) ∧
      (after.view.reached.older = true ↔ first ≤ session.fetchLimit) ∧
      after.slots.status .older = .idle ∧
      after.slots.isInFlight .older = false ∧ after.bound = session.bound ∧
      after.fetchLimit = session.fetchLimit := by
  obtain ⟨request, waits⟩ :=
    pages.shows.faithful.anchored.exists_waiting flying
  obtain ⟨made, _⟩ := mem_waiting.mp waits
  obtain ⟨answered, next⟩ :=
    holds.fetch (pages.shows.name_of_waiting waits)
  obtain ⟨shows, reached, status, idle⟩ := pages.shows.deliver waits
  rw [pages.limits request made] at shows reached
  obtain ⟨_, _, merging, _⟩ := pages.shows.mergesPage waits
  obtain ⟨_, sent, fetchLimit, bound⟩ := merging.frame
  have step := pages.shows.faithful.anchored.answerOne_eq waits
    (fun folder request => folder.fetch files request false) folder
  simp only [answered] at step
  refine ⟨_, _, _, step, next, ⟨shows, ?_, ?_⟩, reached, status, idle, bound,
    fetchLimit⟩
  · rw [fetchLimit]
    exact pages.asks
  · rw [sent, fetchLimit]
    exact pages.limits

end Pages

theorem openFile_made (session : Session) (file : FileRef) :
    (session.openFile file).1 = true := by
  have requested := session.requested_openFile file
  cases made : (session.openFile file).1 with
  | true => rfl
  | false =>
      rw [made] at requested
      generalize (session.openFile file).2 = after at requested
      cases requested with
      | refused settled =>
          rcases settled _ rfl .older none false rfl with reached | flying
          · cases reached
          · cases flying

theorem flying_openFile {session : Session} (anchored : session.Anchored)
    (file : FileRef) :
    (session.openFile file).2.slots.isInFlight .older = true := by
  have requested := session.requested_openFile file
  rw [session.openFile_made file] at requested
  exact requested.flying (anchored.reopened file)

theorem pages_openFile {session : Session} {contents : String → List UInt8}
    (faithful : session.Faithful contents) (asks : 0 < session.fetchLimit)
    (limits : ∀ request ∈ session.sent, request.limit = session.fetchLimit)
    (file : FileRef) :
    (session.openFile file).2.Pages contents file.name
      (fileRecords (contents file.name)).length := by
  have requested := session.requested_openFile file
  have opened := requested.opened_eq
  refine ⟨⟨faithful.openFile file, ⟨_, opened, rfl⟩, Nat.le_refl _, ?_⟩, ?_, ?_⟩
  · rw [List.drop_length, records_eq opened]
    rfl
  · rw [requested.fetchLimit_eq]
    exact asks
  · exact requested.limits limits

end Session
end LogPager
