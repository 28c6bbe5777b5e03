import LogPager.Proofs.Session.Paging
import LogPager.Proofs.Session.Refetching
import LogPager.Proofs.Source.Histories
import LogPager.Proofs.Source.Rereading
import LogPager.Proofs.Window.Overlaps

/-!
# When answers settle a session

An answer frees the slot of its request, and only one that leaves a gap before
the window makes the session ask again.  It asks for the same lines then, so
while the file stays as it is the answer is the same: either the first answer
settles the session, or none ever does.  The latter happens when the file has
become so short that lines before the window are missing.
-/

namespace LogPager

theorem Page.outside_older_of_lines {page : Page} {data : List UInt8}
    {range : LineRange} {held : Nat}
    (read : page.records = range.slice (fileRecords data))
    (inside : range.stop ≤ (fileRecords data).length)
    (before : range.stop ≤ held) : page.outside .older held = page.records := by
  apply List.filter_eq_self.mpr
  intro record member
  have placed : record.position ∈ range.toList := by
    rw [← LineRange.map_position_slice inside, ← read]
    exact List.mem_map_of_mem member
  rw [LineRange.toList, List.mem_range'_1] at placed
  rw [Edge.isBeyond, decide_eq_true_iff]
  omega

/-- The lines that a file has before the oldest record of a window are refused
exactly if they do not reach up to it. -/
theorem Window.Sound.refuses_lines_iff {window : Window} (sound : window.Sound)
    {data : List UInt8} {page : Page} {fetched : Fetched} {limit : Nat}
    (asks : 0 < limit) (older : fetched.edge = .older)
    (read : page.records =
      (LineRange.select (fileRecords data).length .older (window.edge? .older)
        limit).1.slice (fileRecords data)) :
    (∃ error, window.mergeFetched page fetched = .error error) ↔
      ∃ oldest, window.edge? .older = some oldest ∧
        0 < (fileRecords data).length ∧ (fileRecords data).length < oldest := by
  cases holds : window.edge? .older with
  | none =>
      refine iff_of_false ?_ nofun
      rintro ⟨error, refused⟩
      obtain ⟨oldest, found⟩ := (sound.isEmpty_eq_false_iff_edge? .older).mp
        (sound.isEmpty_of_refused refused)
      cases holds.symm.trans found
  | some oldest =>
      have several := (sound.isEmpty_eq_false_iff_edge? _).mpr ⟨oldest, holds⟩
      rw [holds] at read
      simp only [LineRange.select, Option.getD_some] at read
      have inside : min oldest (fileRecords data).length ≤
          (fileRecords data).length := Nat.min_le_right _ _
      have outside := Page.outside_older_of_lines read inside
        (Nat.min_le_left _ _)
      simp only [mergeFetched_eq_error_iff several, older,
        splice_eq_error_iff holds, outside, Option.some.injEq, exists_eq_left']
      rcases Nat.eq_zero_or_pos (min oldest (fileRecords data).length) with
        none | some
      · rw [read, none, LineRange.slice_eq_nil (Nat.zero_le _)]
        refine iff_of_false ?_ (by omega)
        rintro ⟨error, facing, found, _⟩
        cases found
      · have lines : min oldest (fileRecords data).length - limit <
            min oldest (fileRecords data).length := by omega
        have last := @LineRange.edge_slice ⟨_, _⟩ data inside lines .newer
        rw [← read, Option.map_eq_some_iff] at last
        obtain ⟨facing, innermost, position⟩ := last
        have position : facing.position =
            min oldest (fileRecords data).length - 1 := position
        have apart : Edge.older.abuts oldest facing.position = false ↔
            (fileRecords data).length < oldest := by
          rw [Edge.abuts, beq_eq_false_iff_ne, position]
          omega
        constructor
        · rintro ⟨error, other, found, away, _⟩
          cases innermost.symm.trans found
          exact ⟨by omega, apart.mp away⟩
        · rintro ⟨_, shorter⟩
          exact ⟨_, facing, innermost, apart.mpr shorter, rfl⟩

namespace Session

/-- A request that waits asks for the records before the window. -/
structure AsksBefore (session : Session) (request : Request) (log : OpenLog)
    (limit : Nat) : Prop where
  awaits : session.Awaits request log
  open_ : log.window.reached.older = false
  edge : request.edge = .older
  anchor : request.anchor = log.window.edge? .older
  limit : request.limit = limit

theorem Anchored.asksBefore {session : Session} (anchored : session.Anchored)
    {limit : Nat} (asks : session.AsksFor limit) {request : Request}
    (waits : request ∈ session.waiting) :
    ∃ log, session.AsksBefore request log limit := by
  obtain ⟨made, _, holds⟩ := mem_waiting.mp waits
  obtain ⟨log, awaits⟩ := anchored.tracked.awaits made holds
  obtain ⟨anchor, open_⟩ := anchored.anchor request made holds log awaits.opened
  exact ⟨log, awaits, open_, anchored.older request made, anchor,
    (asks.2 request made).trans asks.1⟩

theorem AsksBefore.findsGap_iff {session : Session} {reply : Reply}
    {log : OpenLog} {limit : Nat}
    (asks : session.AsksBefore reply.request log limit) {message : Message}
    (result : reply.result = .ok message) {source : FileRef}
    (tagged : message.source = some source)
    (same : source.sameFile log.file = true) {page : Page}
    (paged : Page.ofRecords source.name message.records = .ok page) :
    FindsGap (session.deliver reply).1 .older ↔
      ∃ error, log.window.mergeFetched page (fetchedBy reply.request message) =
        .error error := by
  have delivered := session.delivered reply
  generalize (session.deliver reply).1 = outcome at delivered ⊢
  generalize (session.deliver reply).2 = after at delivered
  cases delivered with
  | dropped unwanted late => exact (unwanted log asks.awaits).elim
  | discarded awaits discards =>
      cases asks.awaits.opened.symm.trans awaits.opened
      cases discards with
      | failed failed => cases result.symm.trans failed
      | foreclosed _ reached =>
          rw [asks.edge] at reached
          cases asks.open_.symm.trans reached
      | keepalive again none =>
          cases result.symm.trans again
          cases tagged.symm.trans none
      | foreign again other foreign =>
          cases result.symm.trans again
          cases tagged.symm.trans other
          cases same.symm.trans foreign
      | unordered again order =>
          cases result.symm.trans again
          rw [Page.ofRecords_of_unordered _ order] at paged
          cases paged
  | refetched awaits _ again other page gap =>
      cases asks.awaits.opened.symm.trans awaits.opened
      cases result.symm.trans again
      cases tagged.symm.trans other
      cases paged.symm.trans page
      exact iff_of_true ⟨_, _, by rw [asks.edge]⟩ ⟨_, gap⟩
  | merged awaits _ again other _ page merged =>
      cases asks.awaits.opened.symm.trans awaits.opened
      cases result.symm.trans again
      cases tagged.symm.trans other
      cases paged.symm.trans page
      refine iff_of_false ?_ ?_
      · rintro ⟨_, _, gap⟩
        cases gap
      · rintro ⟨error, refused⟩
        cases merged.symm.trans refused

/-- The answer to the request that waits leaves a gap before the window, which is
not full. -/
def Stranded (session : Session)
    (answer : Request → Except ReadError Message) : Prop :=
  ∃ request log, request ∈ session.waiting ∧ session.opened = some log ∧
    ¬log.window.FullAtLiveEnd session.bound ∧
    FindsGap (session.deliver { request, result := answer request }).1 .older

/-- An answer leaves nothing in flight, unless it strands the session. -/
theorem Anchored.idle_of_answer {session : Session}
    (anchored : session.Anchored) {answer : Request → Except ReadError Message}
    (goes : ¬session.Stranded answer) {request : Request}
    (waits : request ∈ session.waiting) :
    (session.deliver { request, result := answer request }).2.slots.isInFlight
      .older = false := by
  obtain ⟨made, _, holds⟩ := mem_waiting.mp waits
  have older := anchored.older request made
  have delivered := session.delivered { request, result := answer request }
  have strands : ∀ log, session.opened = some log →
      ¬log.window.FullAtLiveEnd session.bound →
        ¬FindsGap (session.deliver { request, result := answer request }).1
          .older :=
    fun log opened roomy gap => goes ⟨request, log, waits, opened, roomy, gap⟩
  generalize (session.deliver { request, result := answer request }).1 = outcome
    at delivered strands
  generalize (session.deliver { request, result := answer request }).2 = after
    at delivered ⊢
  cases delivered with
  | dropped unwanted late =>
      obtain ⟨log, awaits⟩ := anchored.tracked.awaits made holds
      exact (unwanted log awaits).elim
  | discarded awaits discards =>
      rw [older]
      exact session.isInFlight_freed .older _
  | @refetched log _ _ _ held received awaits open_ result tagged paged gap =>
      have sound := (anchored.tailing log awaits.opened).sound
      by_cases full : log.window.FullAtLiveEnd session.bound
      · have rests := (requestMore_freed awaits.opened
          (sound.isEmpty_of_refused gap) open_).1 full
        rw [older] at rests ⊢
        exact rests.free
      · refine (strands log awaits.opened full ⟨held, received, ?_⟩).elim
        rw [older]
  | merged awaits open_ result tagged same paged merged =>
      rw [older]
      exact session.isInFlight_freed .older _

/-- The first answer settles a session that it does not strand. -/
theorem Anchored.settles {session : Session} (anchored : session.Anchored)
    {answer : σ → Request → Except ReadError Message × σ} {source : σ}
    (goes : ¬session.Stranded fun request => (answer source request).1)
    {rounds : Nat} (some : 0 < rounds) (total : Movement) :
    (session.settle answer rounds source total).2.2.hasPending = false := by
  obtain ⟨rounds, rfl⟩ := Nat.exists_eq_succ_of_ne_zero (Nat.ne_of_gt some)
  cases waiting : session.waiting with
  | nil =>
      rw [settle_of_waiting_nil waiting, anchored.hasPending_eq,
        ← Bool.not_eq_true]
      intro flying
      obtain ⟨_, waits⟩ := anchored.exists_waiting flying
      rw [waiting] at waits
      cases waits
  | cons request rest =>
      have waits : request ∈ session.waiting := by
        rw [waiting]
        exact List.mem_cons_self
      obtain ⟨made, _⟩ := mem_waiting.mp waits
      have idle := anchored.idle_of_answer goes waits
      have later := (session.delivered
        { request, result := (answer source request).1 }).anchored anchored made
      rw [settle, anchored.answerOne_eq waits]
      simp only [settle_of_waiting_nil (later.waiting_eq_nil idle)]
      rw [later.hasPending_eq, idle]

theorem AsksBefore.alike {session after : Session} {request again : Request}
    {log : OpenLog} {limit : Nat} (first : session.AsksBefore request log limit)
    (second : after.AsksBefore again log limit) :
    again.file.name = request.file.name ∧ again.edge = request.edge ∧
      again.anchor = request.anchor ∧ again.limit = request.limit := by
  have file := FileRef.sameFile_iff.mp first.awaits.file
  have again := FileRef.sameFile_iff.mp second.awaits.file
  exact ⟨again.trans file.symm, second.edge.trans first.edge.symm,
    second.anchor.trans first.anchor.symm, second.limit.trans first.limit.symm⟩

/-- A reply that leaves a gap before a window which is not full is refused as its
page is, and one more request waits. -/
theorem Anchored.asks_again_after_gap {session : Session}
    (anchored : session.Anchored) {reply : Reply} {edge : Edge}
    (gap : FindsGap (session.deliver reply).1 edge) {log : OpenLog}
    (opened : session.opened = some log)
    (roomy : ¬log.window.FullAtLiveEnd session.bound) :
    (∃ message source page error, reply.result = .ok message ∧
      message.source = some source ∧
      Page.ofRecords source.name message.records = .ok page ∧
      log.window.mergeFetched page (fetchedBy reply.request message) =
        .error error) ∧
    (session.deliver reply).2.opened = some log ∧
    session.AsksAgain (session.deliver reply).2 reply.request.edge := by
  have delivered := session.delivered reply
  generalize (session.deliver reply).1 = outcome at gap delivered
  generalize (session.deliver reply).2 = after at delivered ⊢
  cases delivered with
  | dropped | merged =>
      obtain ⟨_, _, refused⟩ := gap
      cases refused
  | discarded awaits discards => exact (discards.not_findsGap _ gap).elim
  | refetched awaits open_ result tagged paged refused =>
      cases opened.symm.trans awaits.opened
      have several := (anchored.tailing log opened).sound.isEmpty_of_refused
        refused
      refine ⟨⟨_, _, _, _, result, tagged, paged, refused⟩, ?_,
        (requestMore_freed opened several open_).2 roomy⟩
      rw [(requested _ _).opened_eq]
      exact opened

/-- A page that was refused before a window is served again for another request
before it, and refused again. -/
theorem AsksBefore.findsGap_again {session after : Session}
    {request again : Request} {log : OpenLog} {limit : Nat}
    (first : session.AsksBefore request log limit)
    (second : after.AsksBefore again log limit) {folder : LogFolder}
    {files : FileSystem} {message : Message} {source : FileRef} {page : Page}
    {error : SpliceError}
    (read : (folder.fetch files request false).1 = .ok message)
    (tagged : message.source = some source)
    (paged : Page.ofRecords source.name message.records = .ok page)
    (refused : log.window.mergeFetched page (fetchedBy request message) =
      .error error) :
    FindsGap (after.deliver {
      request := again
      result := ((folder.fetch files request false).2.fetch files again
        false).1 }).1 .older := by
  obtain ⟨file, edge, anchor, limits⟩ := first.alike second
  have served : ((folder.fetch files request false).2.fetch files again
      false).1 = .ok message := by
    rw [folder.fetch_again files file edge anchor limits]
    exact read
  have same : source.sameFile log.file = true := by
    rw [LogFolder.fetch_eq] at read
    obtain ⟨cursor, named⟩ := LogFolder.source_of_readContents read
    cases tagged.symm.trans named
    exact first.awaits.file
  have fetched : fetchedBy again message = fetchedBy request message := by
    simp only [fetchedBy, edge, anchor, limits]
  apply (second.findsGap_iff served tagged same paged).mpr
  exact ⟨error, fetched ▸ refused⟩

/-- After an answer that leaves a gap the same lines are asked for again, and the
file answers alike. -/
theorem Stranded.answerOne {session : Session} {folder : LogFolder}
    {files : FileSystem} {limit : Nat}
    (stranded : session.Stranded fun request =>
      (folder.fetch files request false).1)
    (anchored : session.Anchored) (asks : session.AsksFor limit) :
    ∃ error next after,
      session.answerOne (fun folder request => folder.fetch files request false)
        folder = some (.error error, next, after) ∧
      after.Anchored ∧ after.AsksFor limit ∧
      (after.Stranded fun request => (next.fetch files request false).1) ∧
      after.records = session.records ∧
      after.sent.length = session.sent.length + 1 := by
  obtain ⟨request, log, waits, opened, roomy, gap⟩ := stranded
  obtain ⟨made, _⟩ := mem_waiting.mp waits
  obtain ⟨_, before⟩ := anchored.asksBefore asks waits
  cases before.awaits.opened.symm.trans opened
  have delivered := session.delivered
    { request, result := (folder.fetch files request false).1 }
  have afterAnchored := delivered.anchored anchored made
  have afterAsks := asks.delivered delivered
  obtain ⟨⟨message, source, page, error, result, tagged, paged, refused⟩,
    stays, again, sent, holds, _⟩ :=
      anchored.asks_again_after_gap gap opened roomy
  obtain ⟨_, _, failed⟩ := gap
  have step := anchored.answerOne_eq waits
    (fun folder request => folder.fetch files request false) folder
  dsimp only at step
  rw [failed] at step
  have one : (session.deliver
      { request, result := (folder.fetch files request false).1 }).2.sent.length =
        session.sent.length + 1 := by
    rw [sent, List.length_append, List.length_singleton]
  refine ⟨_, _, _, step, afterAnchored, afterAsks, ?_,
    records_eq (stays.trans opened.symm), one⟩
  have againMade : again ∈ (session.deliver
      { request, result := (folder.fetch files request false).1 }).2.sent := by
    rw [sent]
    exact List.mem_append_right _ List.mem_cons_self
  obtain ⟨_, awaits⟩ := afterAnchored.tracked.awaits againMade holds
  have againWaits := mem_waiting.mpr ⟨againMade, awaits.epoch, holds⟩
  obtain ⟨_, after⟩ := afterAnchored.asksBefore afterAsks againWaits
  cases after.awaits.opened.symm.trans stays
  refine ⟨again, log, againWaits, stays, ?_,
    before.findsGap_again after result tagged paged refused⟩
  rw [delivered.bound_eq]
  exact roomy

theorem Stranded.settle {session : Session} {folder : LogFolder}
    {files : FileSystem} {limit : Nat}
    (stranded : session.Stranded fun request =>
      (folder.fetch files request false).1)
    (anchored : session.Anchored) (asks : session.AsksFor limit) (rounds : Nat)
    (total : Movement) :
    let later := (session.settle (fun folder request =>
      folder.fetch files request false) rounds folder total).2.2
    later.hasPending = true ∧ later.records = session.records ∧
      later.sent.length = session.sent.length + rounds := by
  induction rounds generalizing session folder total with
  | zero =>
      obtain ⟨request, _, waits, _⟩ := stranded
      refine ⟨?_, rfl, rfl⟩
      show session.hasPending = true
      rw [anchored.hasPending_eq]
      exact anchored.isInFlight_of_waiting waits
  | succ rounds ih =>
      obtain ⟨error, next, after, step, afterAnchored, afterAsks,
        afterStranded, records, sent⟩ := stranded.answerOne anchored asks
      obtain ⟨pending, same, made⟩ :=
        ih afterStranded afterAnchored afterAsks total
      simp only [Session.settle, step]
      refine ⟨pending, same.trans records, ?_⟩
      rw [made, sent]
      omega

/-- A file strands the session exactly if it has lines but not all of those
before the window. -/
theorem Anchored.stranded_iff {session : Session} (anchored : session.Anchored)
    {limit : Nat} (asks : session.AsksFor limit) (positive : 0 < limit)
    {log : OpenLog} (opened : session.opened = some log) {folder : LogFolder}
    {files : FileSystem} {data : List UInt8}
    (knows : folder.Knows log.file.name data)
    (found : folder.contents? files log.file.name = some data) :
    (session.Stranded fun request => (folder.fetch files request false).1) ↔
      session.hasPending = true ∧
        ¬log.window.FullAtLiveEnd session.bound ∧
        ∃ oldest, log.window.edge? .older = some oldest ∧
          0 < (fileRecords data).length ∧
          (fileRecords data).length < oldest := by
  have sound := (anchored.tailing log opened).sound
  -- The request that waits is served the lines of the file before the window.
  have refused : ∀ request ∈ session.waiting,
      (FindsGap (session.deliver { request, result :=
          (folder.fetch files request false).1 }).1 .older ↔
        ∃ oldest, log.window.edge? .older = some oldest ∧
          0 < (fileRecords data).length ∧
          (fileRecords data).length < oldest) := by
    intro request waits
    obtain ⟨_, before⟩ := anchored.asksBefore asks waits
    cases before.awaits.opened.symm.trans opened
    have name := FileRef.sameFile_iff.mp before.awaits.file
    obtain ⟨message, read, ⟨cursor, tagged⟩, records⟩ :=
      knows.serves request.edge request.anchor request.limit
    rw [← found, ← name, ← LogFolder.fetch_eq] at read
    have inside := (LineRange.select_ordered (fileRecords data).length
      request.edge request.anchor request.limit).2
    have ordered := LineRange.ordered_slice inside
    rw [← records] at ordered
    rw [before.edge, before.anchor] at records
    rw [before.findsGap_iff (congrArg Prod.fst read) tagged
      (FileRef.sameFile_iff.mpr rfl) (Page.ofRecords_of_ordered _ ordered)]
    exact sound.refuses_lines_iff (before.limit ▸ positive) before.edge records
  constructor
  · rintro ⟨request, _, waits, same, roomy, gap⟩
    cases opened.symm.trans same
    refine ⟨?_, roomy, (refused request waits).mp gap⟩
    rw [anchored.hasPending_eq]
    exact anchored.isInFlight_of_waiting waits
  · rintro ⟨pending, roomy, missing⟩
    rw [anchored.hasPending_eq] at pending
    obtain ⟨request, waits⟩ := anchored.exists_waiting pending
    exact ⟨request, log, waits, opened, roomy, (refused request waits).mpr missing⟩

/-- While the files stay as they are, the first answer from them settles a session
or none ever does, and each makes it ask in vain once more.  The latter happens
exactly if the open file has lines but not all of those before the window, and
the window is not full. -/
theorem Reachable.settles_unless_stranded {fetchLimit : Nat}
    {bound : Option Nat} {session : Session}
    (reachable : Reachable fetchLimit bound session) (bounded : bound ≠ some 0)
    (folder : LogFolder) (files : FileSystem) :
    let answer := fun (folder : LogFolder) request =>
      folder.fetch files request false
    let stranded := session.Stranded fun request => (answer folder request).1
    let settled (rounds : Nat) := (session.settle answer rounds folder {}).2.2
    (¬stranded → ∀ rounds, 0 < rounds → (settled rounds).hasPending = false) ∧
    (stranded → ∀ rounds, (settled rounds).hasPending = true ∧
      (settled rounds).records = session.records ∧
      (settled rounds).sent.length = session.sent.length + rounds) ∧
    ∀ log data, session.opened = some log →
      folder.Knows log.file.name data →
      folder.contents? files log.file.name = some data →
        (stranded ↔ session.hasPending = true ∧
          ¬log.window.FullAtLiveEnd bound ∧
          ∃ oldest, log.window.edge? .older = some oldest ∧
            0 < (completeLines data).length ∧
            (completeLines data).length < oldest) := by
  intro answer stranded settled
  have anchored := reachable.anchored bounded
  have asks := reachable.arises.asksFor
  refine ⟨?_, ?_, ?_⟩
  · intro goes rounds some
    exact anchored.settles goes some {}
  · intro stranded rounds
    exact stranded.settle anchored asks rounds {}
  · intro log data opened knows found
    have missing := anchored.stranded_iff asks (Nat.le_max_right _ _) opened
      knows found
    rw [reachable.arises.bound_eq, length_fileRecords] at missing
    exact missing

/-- A file of six lines. -/
private def sixLines : List UInt8 :=
  [0x61, 0x0A, 0x62, 0x0A, 0x63, 0x0A, 0x64, 0x0A, 0x65, 0x0A, 0x66, 0x0A]

/-- The last two of the lines were read, and those before are asked for. -/
private def readingBack : Session :=
  (new 2 none).run [
    .openFile { name := "a" },
    .deliver {
      request := { firstRequest with file := { name := "a" } }
      result := .ok {
        source := some { name := "a", cursor := "12" }
        records := (fileRecords sixLines).drop 4 } },
    .requestMore .older]

/-- The folder that served them. -/
private def readingFolder : LogFolder :=
  ({ path := "/" } : LogFolder).afterRead "a" sixLines

private theorem reachable_readingBack : Reachable 2 none readingBack :=
  ⟨_, by decide +kernel, rfl⟩

private theorem opened_readingBack : ∃ log, readingBack.opened = some log ∧
    log.file.name = "a" ∧ log.window.edge? .older = some 4 := by
  have shown : readingBack.opened.map (fun log =>
      (log.file.name, log.window.edge? .older)) = some ("a", some 4) := by
    decide +kernel
  obtain ⟨log, opened, same⟩ := Option.map_eq_some_iff.mp shown
  exact ⟨log, opened, congrArg Prod.fst same, congrArg Prod.snd same⟩

private theorem knows_readingFolder :
    ({ path := "/" } : LogFolder).Knows "a" sixLines :=
  (LogFolder.follows_of_new "/" fun _ => sixLines).knows "a"

private theorem contents?_readingFolder (data : List UInt8) :
    readingFolder.contents? (LogFolder.oneFile data) "a" = some data :=
  LogFolder.contents?_oneFile data

theorem settled_by_whole_file :
    (readingBack.settle (fun folder request =>
      folder.fetch (LogFolder.oneFile sixLines) request false) 1 readingFolder
        {}).2.2.hasPending = false := by
  obtain ⟨log, opened, name, oldest⟩ := opened_readingBack
  obtain ⟨settles, _, strands⟩ := reachable_readingBack.settles_unless_stranded
    nofun readingFolder (LogFolder.oneFile sixLines)
  have missing := strands log sixLines opened
    (name.symm ▸ knows_readingFolder.afterRead)
    (name.symm ▸ contents?_readingFolder sixLines)
  refine settles ?_ 1 Nat.one_pos
  rw [missing, oldest]
  rintro ⟨_, _, held, same, _, fewer⟩
  cases same
  have lines : (completeLines sixLines).length = 6 := by decide +kernel
  omega

/-- When only two of the lines are left, those before the window are asked for
again and again. -/
theorem asks_forever_after_cut :
    Reachable 2 none readingBack ∧
    ∀ rounds, (readingBack.settle (fun folder request =>
      folder.fetch (LogFolder.oneFile (sixLines.take 4)) request false) rounds
        readingFolder {}).2.2.hasPending = true := by
  refine ⟨reachable_readingBack, ?_⟩
  have anchored := reachable_readingBack.anchored nofun
  have asks := reachable_readingBack.arises.asksFor
  obtain ⟨log, opened, name, oldest⟩ := opened_readingBack
  have knows : readingFolder.Knows log.file.name (sixLines.take 4) :=
    name.symm ▸ knows_readingFolder.cutOff (by decide +kernel)
  have roomy : ¬log.window.FullAtLiveEnd readingBack.bound := by
    rw [reachable_readingBack.arises.bound_eq]
    simp [Window.FullAtLiveEnd, Window.isFull]
  have stranded := (anchored.stranded_iff asks (by decide) opened knows
    (name.symm ▸ contents?_readingFolder _)).mpr
      ⟨by decide +kernel, roomy, 4, oldest, by decide +kernel⟩
  intro rounds
  exact (stranded.settle anchored asks rounds {}).1

end Session
end LogPager
