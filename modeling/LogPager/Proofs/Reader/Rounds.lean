import LogPager.Proofs.Reader.Faithful
import LogPager.Proofs.Session.Filling
import LogPager.Proofs.Session.Shifts
import LogPager.Proofs.Source.Histories

/-!
# Paging back in rounds

In each round the request in flight is answered and older records are asked for.
While its file stays as it is and nothing bounds the window, a session shows
after some rounds as many of the last records as these rounds asked for.  It
goes on asking until it shows them all, and then it never asks again.
-/

namespace LogPager

namespace Session

/-- The start of the open file is reached and no request is in flight. -/
structure AtStart (session : Session) : Prop where
  anchored : session.Anchored
  reached : session.view.reached.older = true
  idle : session.slots.isInFlight .older = false

theorem Pushed.reached_eq {session after : Session} {message : Message}
    {outcome : Except SessionError Movement}
    (pushed : session.Pushed message outcome after) (sound : session.Sound) :
    after.view.reached = session.view.reached := by
  cases pushed with
  | closed | foreign | ignored | unordered | unmerged => rfl
  | merged opened same live paged merged =>
      have takes := (sound _ opened).mergeLive live merged
      rw [view_of_opened opened, view_of_opened (opened_settleWindow _ _ _ _)]
      exact (takes.sound.reached_enforceBound _ _ _ _).trans takes.reached

namespace AtStart

variable {session : Session}

theorem hasPending_eq (atStart : session.AtStart) :
    session.hasPending = false := by
  rw [atStart.anchored.hasPending_eq, atStart.idle]

theorem requestMore_eq (atStart : session.AtStart) (edge : Edge) :
    session.requestMore edge = (false, session) := by
  have requested := session.requested edge
  generalize session.requestMore edge = asked at requested ⊢
  obtain ⟨made, after⟩ := asked
  cases requested with
  | refused settled => rfl
  | made opened target free =>
      obtain ⟨_, _, away⟩ := atStart.anchored.target opened target
      have reached := atStart.reached
      rw [view_of_opened opened] at reached
      rw [Window.view, away] at reached
      cases reached

theorem afterAnswer_eq (atStart : session.AtStart)
    (answer : σ → Request → Except ReadError Message × σ) (source : σ) :
    session.afterAnswer answer source = (source, session) := by
  rw [afterAnswer, answerOne, atStart.anchored.waiting_eq_nil atStart.idle]

theorem deliver_eq (atStart : session.AtStart) (reply : Reply) :
    (session.deliver reply).2 = session := by
  have unwanted : ∀ log, ¬session.Awaits reply.request log := by
    intro log awaits
    have flying := Slots.isInFlight_of_holds awaits.holds
    cases edge : reply.request.edge with
    | older =>
        rw [edge, atStart.idle] at flying
        cases flying
    | newer =>
        rw [edge, atStart.anchored.newer_idle] at flying
        cases flying
  obtain ⟨_, _, dropped⟩ := deliver_of_not_awaits unwanted
  rw [dropped]

theorem perform (atStart : session.AtStart) {operation : Operation}
    (keeps : operation.KeepsFile) :
    (session.perform operation).AtStart ∧
      (session.perform operation).sent = session.sent := by
  cases operation with
  | openFile | close => cases keeps
  | requestMore edge =>
      rw [Session.perform, atStart.requestMore_eq edge]
      exact ⟨atStart, rfl⟩
  | deliver reply =>
      rw [Session.perform, atStart.deliver_eq reply]
      exact ⟨atStart, rfl⟩
  | push message =>
      have pushed := session.pushed message
      refine ⟨⟨pushed.anchored atStart.anchored, ?_, ?_⟩, pushed.sent_eq⟩
      · show (session.push message).2.view.reached.older = true
        rw [pushed.reached_eq atStart.anchored.sound]
        exact atStart.reached
      · show (session.push message).2.slots.isInFlight .older = false
        rw [pushed.slots_eq]
        exact atStart.idle
  | subscribe | unsubscribe | take =>
      exact ⟨⟨atStart.anchored.perform _ trivial, atStart.reached,
        atStart.idle⟩, rfl⟩

/-- No operation on the open file makes a request any more. -/
theorem sent_run (atStart : session.AtStart) {operations : List Operation}
    (keeps : ∀ operation ∈ operations, operation.KeepsFile) :
    (session.run operations).sent = session.sent := by
  induction operations generalizing session with
  | nil => rfl
  | cons operation operations ih =>
      obtain ⟨keepsFirst, keepsRest⟩ := List.forall_mem_cons.mp keeps
      obtain ⟨onward, sent⟩ := atStart.perform keepsFirst
      exact (ih onward keepsRest).trans sent

end AtStart

/-- A round of paging back: the request that waits, if there is one, is answered
and older records are asked for.  Whether a request was made for them, and the
source and the session afterwards. -/
def pageBack (answer : σ → Request → Except ReadError Message × σ)
    (source : σ) (session : Session) : Bool × σ × Session :=
  let (source, session) := session.afterAnswer answer source
  let (made, session) := session.requestMore .older
  (made, source, session)

/-- Some rounds of paging back, and whether the last one made a request. -/
def pageBackBy (answer : σ → Request → Except ReadError Message × σ)
    (source : σ) (session : Session) : (rounds : Nat) → Bool × σ × Session
  | 0 => (false, source, session)
  | rounds + 1 =>
      let (_, source, session) := session.pageBackBy answer source rounds
      session.pageBack answer source

theorem AtStart.pageBack_eq {session : Session} (atStart : session.AtStart)
    (answer : σ → Request → Except ReadError Message × σ) (source : σ) :
    session.pageBack answer source = (false, source, session) := by
  rw [pageBack, atStart.afterAnswer_eq]
  simp only [atStart.requestMore_eq]

theorem Anchored.open_of_flying {session : Session}
    (anchored : session.Anchored)
    (flying : session.slots.isInFlight .older = true) :
    session.view.reached.older = false := by
  obtain ⟨log, request, made, opened, _, holds⟩ := anchored.older_holder flying
  rw [view_of_opened opened]
  exact (anchored.anchor request made holds log opened).2

/-- Paging back has come to a line of a file: it has ended there, or the lines
before are in flight. -/
structure PagedTo (session : Session) (folder : LogFolder) (files : FileSystem)
    (contents : String → List UInt8) (name : String) (first : Nat)
    (ended : Prop) : Prop where
  holds : folder.Holds files contents name
  pages : session.Pages contents name first
  unbounded : session.bound = none
  atStart : ended → session.AtStart
  flying : ¬ended → session.slots.isInFlight .older = true

namespace PagedTo

variable {session : Session} {folder : LogFolder} {files : FileSystem}
  {contents : String → List UInt8} {name : String} {first : Nat}
  {ended : Prop}

theorem reached_iff
    (paged : session.PagedTo folder files contents name first ended) :
    session.view.reached.older = true ↔ ended := by
  by_cases start : ended
  · exact iff_of_true (paged.atStart start).reached start
  · have away := paged.pages.shows.faithful.anchored.open_of_flying
      (paged.flying start)
    rw [away]
    exact iff_of_false Bool.false_ne_true start

theorem congr (paged : session.PagedTo folder files contents name first ended)
    {line : Nat} {start : Prop} (same : line = first) (alike : start ↔ ended) :
    session.PagedTo folder files contents name line start := by
  subst same
  rw [propext alike]
  exact paged

/-- A round asks for the lines before those that it brings, unless there are
none. -/
theorem pageBack
    (paged : session.PagedTo folder files contents name first ended)
    (onward : ¬ended) :
    ∃ next after,
      session.pageBack (fun folder request => folder.fetch files request false)
        folder = (decide (session.fetchLimit < first), next, after) ∧
      after.fetchLimit = session.fetchLimit ∧
      after.PagedTo next files contents name (first - session.fetchLimit)
        (first ≤ session.fetchLimit) := by
  obtain ⟨_, next, later, step, holds, pages, reached, _, idle, bound, limit⟩ :=
    paged.pages.answerOne paged.holds (paged.flying onward)
  have answered : session.afterAnswer
      (fun folder request => folder.fetch files request false) folder =
        (next, later) := by
    rw [afterAnswer, step]
  rw [Window.firstKept, paged.unbounded, Option.elim_none, Nat.max_zero] at pages
  have asks := paged.pages.asks
  have inside := paged.pages.shows.inside
  by_cases start : first ≤ session.fetchLimit
  · have atStart : later.AtStart :=
      ⟨pages.shows.faithful.anchored, reached.mpr start, idle⟩
    refine ⟨next, later, ?_, limit, holds, pages, bound.trans paged.unbounded,
      fun _ => atStart, fun away => (away start).elim⟩
    rw [Session.pageBack, answered]
    simp only [atStart.requestMore_eq, Nat.not_lt.mpr start, decide_false]
  · have open_ : later.view.reached.older = false := by
      rw [← Bool.not_eq_true, reached]
      exact start
    have room : ∀ most, later.bound = some most → later.held < most := by
      rw [bound, paged.unbounded]
      rintro _ ⟨⟩
    obtain ⟨asking, asked, again, flying, same⟩ :=
      pages.asks_again idle open_ (by omega) room
    have asking_limit : asking.fetchLimit = later.fetchLimit := by
      have requested := later.requested .older
      rw [asked] at requested
      exact requested.fetchLimit_eq
    refine ⟨next, asking, ?_, asking_limit.trans limit, holds, again,
      (same.trans bound).trans paged.unbounded, fun ended => (start ended).elim,
      fun _ => flying⟩
    rw [Session.pageBack, answered]
    simp only [asked, Nat.lt_of_not_le start, decide_true]

/-- Some rounds bring as many lines before the first as they ask for. -/
theorem pageBackBy
    (paged : session.PagedTo folder files contents name first False)
    (rounds : Nat) :
    ∃ made next after,
      session.pageBackBy (fun folder request => folder.fetch files request false)
        folder rounds = (made, next, after) ∧
      after.fetchLimit = session.fetchLimit ∧
      after.PagedTo next files contents name
        (first - rounds * session.fetchLimit)
        (0 < rounds ∧ first ≤ rounds * session.fetchLimit) ∧
      (0 < rounds → (made = true ↔ rounds * session.fetchLimit < first)) := by
  induction rounds with
  | zero =>
      refine ⟨false, folder, session, rfl, rfl, ?_, nofun⟩
      simpa using paged
  | succ rounds ih =>
      obtain ⟨_, between, before, run, limit, stands, _⟩ := ih
      have asks := paged.pages.asks
      have following : ∀ made next after,
          before.pageBack (fun folder request => folder.fetch files request
            false) between = (made, next, after) →
          session.pageBackBy (fun folder request => folder.fetch files request
            false) folder (rounds + 1) = (made, next, after) := by
        intro made next after step
        rw [Session.pageBackBy, run]
        exact step
      rw [Nat.succ_mul]
      by_cases ended : 0 < rounds ∧ first ≤ rounds * session.fetchLimit
      · have atStart := stands.atStart ended
        refine ⟨false, between, before,
          following _ _ _ (atStart.pageBack_eq _ _), limit,
          stands.congr (by omega) (by omega), fun _ => ?_⟩
        exact iff_of_false Bool.false_ne_true (by omega)
      · obtain ⟨next, after, step, same, onward⟩ := stands.pageBack ended
        rw [limit] at step same onward
        refine ⟨_, next, after, following _ _ _ step, same,
          onward.congr (by omega) (by omega), fun _ => ?_⟩
        rw [decide_eq_true_iff]
        omega

end PagedTo
end Session

namespace Reader

theorem Reached.arises {path : String} {fetchLimit : Nat}
    {bound : Option Nat} {reader : Reader}
    (reached : Reached path fetchLimit bound reader) :
    Session.Arises fetchLimit bound reader.session := by
  -- Every event performs some operations on the session.
  have onward : ∀ (earlier : Reader) event, ∃ operations,
      (earlier.step event).2.session = earlier.session.run operations := by
    intro earlier event
    cases event with
    | grow | answer => exact ⟨[], rfl⟩
    | openFile file => exact ⟨[.openFile file], rfl⟩
    | close => exact ⟨[.close], rfl⟩
    | requestMore edge => exact ⟨[.requestMore edge], rfl⟩
    | deliver reply => exact ⟨[.deliver reply], rfl⟩
    | catchUp live reads later =>
        obtain ⟨messages, ends, _⟩ := (Session.catchesUp
          (GrowingFolder.readAfter live) live.batch reads
          { folder := earlier.folder, files := earlier.files, later }
          earlier.session {}).runs_pushes
        exact ⟨messages.map .push, ends.symm⟩
  induction reached with
  | start files => exact ⟨[], rfl⟩
  | @step earlier event _ _ ih =>
      obtain ⟨before, same⟩ := ih
      obtain ⟨operations, step⟩ := onward earlier event
      refine ⟨before ++ operations, ?_⟩
      rw [Session.run_append, same, step]

/-- A reader without a bound opens a file and pages back, while the file stays
as it is.  After some rounds of at least one record each it holds as many of the
last records as were asked for.  The last round made a request exactly if older
records remain; otherwise the start of the file is reached, as soon as the
rounds could bring all records, all of them are held, and no request is made any
more. -/
theorem Reached.pages_back {path : String} {fetchLimit : Nat} {reader : Reader}
    (reached : Reached path fetchLimit none reader) (asks : 0 < fetchLimit)
    {file : FileRef} {data : List UInt8}
    (found : reader.folder.contents? reader.files file.name = some data)
    (rounds : Nat) :
    let total := (completeLines data).length
    let answer := fun (folder : LogFolder) request =>
      folder.fetch reader.files request false
    let paged := (reader.session.openFile file).2.pageBackBy answer reader.folder
      rounds
    let later := paged.2.2
    later.records = (fileRecords data).drop (total - rounds * fetchLimit) ∧
      later.held = min (rounds * fetchLimit) total ∧
      (0 < rounds → (paged.1 = true ↔ rounds * fetchLimit < total)) ∧
      (later.view.reached.older = true ↔
        max 1 ((total + fetchLimit - 1) / fetchLimit) ≤ rounds) ∧
      (later.view.reached.older = true →
        later.records = fileRecords data ∧ later.hasPending = false ∧
          ∀ operations : List Operation,
            (∀ operation ∈ operations, operation.KeepsFile) →
              (later.run operations).sent = later.sent) := by
  intro total answer paged later
  have faithful := reached.faithful nofun
  have arises := reached.arises
  obtain ⟨limit, limits⟩ := arises.asksFor
  rw [Nat.max_eq_left asks] at limit
  have contents : reader.bytesOf file.name = data := by
    rw [Reader.bytesOf, LogFolder.bytesOf, found, Option.getD_some]
  have requested := reader.session.requested_openFile file
  have opens : (reader.session.openFile file).2.PagedTo reader.folder
      reader.files reader.bytesOf file.name (fileRecords data).length False := by
    refine ⟨⟨faithful.maps, contents.symm ▸ found⟩, ?_, ?_, False.elim,
      fun _ => Session.flying_openFile faithful.session.anchored file⟩
    · rw [← contents]
      exact Session.pages_openFile faithful.session (limit ▸ asks) limits file
    · rw [requested.bound_eq]
      exact arises.bound_eq
  obtain ⟨made, next, after, run, _, stands, going⟩ := opens.pageBackBy rounds
  have asked : (reader.session.openFile file).2.fetchLimit = fetchLimit :=
    requested.fetchLimit_eq.trans limit
  rw [asked, length_fileRecords] at stands going
  have ends : paged = (made, next, after) := run
  have same : later = after := congrArg (·.2.2) ends
  have shows := stands.pages.shows
  have records := shows.records
  rw [contents] at records
  have counted : (total + fetchLimit - 1) / fetchLimit ≤ rounds ↔
      total ≤ rounds * fetchLimit := by
    rw [Nat.div_le_iff_le_mul_add_pred asks, Nat.mul_comm]
    omega
  rw [same, ends]
  refine ⟨records, ?_, going, ?_, ?_⟩
  · rw [shows.held_eq, contents, length_fileRecords]
    omega
  · rw [stands.reached_iff, Nat.max_le, counted]
    exact Iff.rfl
  · intro start
    have ended := stands.reached_iff.mp start
    have atStart := stands.atStart ended
    refine ⟨?_, atStart.hasPending_eq, fun _ keeps => atStart.sent_run keeps⟩
    rw [records, Nat.sub_eq_zero_of_le ended.2, List.drop_zero]

/-- Of three lines the first round brings two and the second the last one. -/
private def linesXYZ : List UInt8 := [0x78, 0x0A, 0x79, 0x0A, 0x7A, 0x0A]

theorem pages_back_three_lines :
    let reader := start (LogFolder.oneFile linesXYZ) "/" 2 none
    let paged := (reader.session.openFile { name := "a" }).2.pageBackBy
      (fun (folder : LogFolder) request =>
        folder.fetch reader.files request false) reader.folder
    (paged 1).1 = true ∧ (paged 1).2.2.held = 2 ∧
      (paged 1).2.2.view.reached.older = false ∧
      (paged 2).1 = false ∧ (paged 2).2.2.records = fileRecords linesXYZ ∧
      (paged 2).2.2.view.reached.older = true := by
  intro reader paged
  have reached : Reached "/" 2 none reader := .start _
  have found : reader.folder.contents? reader.files
      ({ name := "a" } : FileRef).name = some linesXYZ :=
    LogFolder.contents?_oneFile linesXYZ
  have lines : (completeLines linesXYZ).length = 3 := by decide +kernel
  have pages := reached.pages_back Nat.zero_lt_two found
  simp only [lines] at pages
  obtain ⟨_, held, made, away, _⟩ := pages 1
  obtain ⟨records, _, last, start, _⟩ := pages 2
  refine ⟨(made Nat.zero_lt_one).mpr (by decide), held, ?_, ?_, records, ?_⟩
  · rw [← Bool.not_eq_true]
    exact fun reached => absurd (away.mp reached) (by decide)
  · rw [← Bool.not_eq_true]
    exact fun asked => absurd ((last Nat.zero_lt_two).mp asked) (by decide)
  · exact start.mpr (by decide)

end Reader
end LogPager
