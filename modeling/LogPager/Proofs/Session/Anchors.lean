import LogPager.Proofs.Session.Requests
import LogPager.Proofs.Window.Tailing

/-!
# Requests are anchored at the held edge

While replies echo requests that were made and the bound is positive, every
request asks for older records and the slot of the newer edge stays free.  A
request that holds its slot is anchored at the oldest held position, and the
older edge has not been reached.  The anchor stays right until the reply: a
push leaves the oldest record alone, and keeping the bound evicts nothing at an
edge where a request is in flight.
-/

namespace LogPager.Session

/-- The window is filled from the live end, and the request in flight asks for
the records before it. -/
structure Anchored (session : Session) : Prop where
  tracked : session.Tracked
  bounded : session.bound ≠ some 0
  tailing : ∀ log, session.opened = some log → log.window.Tailing
  older : ∀ request ∈ session.sent, request.edge = .older
  anchor : ∀ request ∈ session.sent, session.slots.holds request = true →
    ∀ log, session.opened = some log →
      request.anchor = log.window.edge? .older ∧
        log.window.reached.older = false

namespace Anchored

theorem new (fetchLimit : Nat) {bound : Option Nat} (bounded : bound ≠ some 0) :
    (Session.new fetchLimit bound).Anchored := by
  constructor
  · exact Tracked.new fetchLimit bound
  · exact bounded
  · intro log opened
    cases opened
  · intro request member
    cases member
  · intro request member
    cases member

theorem newer_idle {session : Session} (anchored : session.Anchored) :
    session.slots.isInFlight .newer = false := by
  rw [← Bool.not_eq_true, Slots.isInFlight_iff]
  rintro ⟨holder, slot⟩
  obtain ⟨log, request, member, _, edge, _⟩ :=
    anchored.tracked.held .newer holder slot
  have older := anchored.older request member
  rw [edge] at older
  cases older

theorem older_holder {session : Session} (anchored : session.Anchored)
    (flying : session.slots.isInFlight .older = true) :
    ∃ log, ∃ request ∈ session.sent, session.opened = some log ∧
      request.edge = .older ∧ session.slots.holds request = true := by
  obtain ⟨holder, slot⟩ := Slots.isInFlight_iff.mp flying
  obtain ⟨log, request, member, opened, edge, id, _⟩ :=
    anchored.tracked.held .older holder slot
  refine ⟨log, request, member, opened, edge, Slots.holds_iff.mpr ⟨holder, ?_, id.symm⟩⟩
  rw [edge]
  exact slot

theorem edge?_eq {session : Session} (anchored : session.Anchored)
    {request : Request} (made : request ∈ session.sent)
    (holds : session.slots.holds request = true) :
    request.anchor = session.edge? .older := by
  obtain ⟨log, awaits⟩ := anchored.tracked.awaits made holds
  rw [edge?, awaits.opened]
  exact (anchored.anchor request made holds log awaits.opened).1

theorem isInFlight_of_holds {session : Session} (anchored : session.Anchored)
    {request : Request} (made : request ∈ session.sent)
    (holds : session.slots.holds request = true) :
    session.slots.isInFlight .older = true := by
  rw [← anchored.older request made]
  exact Slots.isInFlight_of_holds holds

theorem freed {session : Session} (anchored : session.Anchored)
    (status : SlotStatus) : (session.freed .older status).Anchored := by
  refine ⟨anchored.tracked.freed _ _, anchored.bounded, anchored.tailing,
    anchored.older, ?_⟩
  intro request member holds
  exact (Slots.not_holds_of_idle (anchored.older request member) rfl holds).elim

theorem target {session : Session} (anchored : session.Anchored)
    {log : OpenLog} (opened : session.opened = some log) {edge toward : Edge}
    {anchor : Option Nat}
    (found : session.target? log.window edge = some (toward, anchor, false)) :
    toward = .older ∧ anchor = log.window.edge? .older ∧
      log.window.reached.older = false := by
  have tailing := anchored.tailing log opened
  have live : log.window.isEmpty = false → log.window.reached.newer = true :=
    fun several => tailing.live (tailing.sound.isEmpty_eq_false_iff.mp several)
  obtain ⟨rfl, open_, ⟨empty, rfl⟩ | ⟨_, rfl, _⟩⟩ := target?_of_live live found
  · have nothing : log.window.edge? .older = none :=
      tailing.sound.edge?_eq_none_iff.mpr (tailing.sound.isEmpty_iff.mp empty)
    exact ⟨rfl, nothing.symm, open_⟩
  · exact ⟨rfl, rfl, open_⟩

end Anchored

theorem Requested.anchored {session after : Session} {edge : Edge}
    {made : Bool} (requested : session.Requested edge made after)
    (anchored : session.Anchored) : after.Anchored := by
  have tracked := requested.tracked anchored.tracked
  cases requested with
  | refused settled => exact anchored
  | @made log toward anchor opened target free =>
      obtain ⟨rfl, rfl, open_⟩ := anchored.target opened target
      refine ⟨tracked, anchored.bounded, anchored.tailing, ?_, ?_⟩
      · intro request member
        rcases List.mem_append.mp member with earlier | newest
        · exact anchored.older request earlier
        · rw [List.mem_singleton.mp newest]
          rfl
      · intro request member holds other same
        cases opened.symm.trans same
        rcases List.mem_append.mp member with earlier | newest
        · -- The slot was free, so what holds it now is the new request.
          have idle :=
            Slots.not_holds_of_idle (anchored.older request earlier) free
          have step : session.Requested edge true _ :=
            .made opened target free
          exact (step.not_holds anchored.tracked earlier idle holds).elim
        · rw [List.mem_singleton.mp newest]
          exact ⟨rfl, open_⟩

/-- The request of a reply that is merged said of its page that it was read
from the live end exactly if the window is empty. -/
theorem Anchored.unanchored {session : Session} (anchored : session.Anchored)
    {request : Request} {log : OpenLog} (made : request ∈ session.sent)
    (awaits : session.Awaits request log) :
    request.anchor.isNone = log.window.isEmpty := by
  have tailing := anchored.tailing log awaits.opened
  rw [(anchored.anchor request made awaits.holds log awaits.opened).1]
  cases empty : log.window.isEmpty with
  | true =>
      have nothing := tailing.sound.isEmpty_iff.mp empty
      simp [tailing.sound.edge?_eq_none_iff.mpr nothing]
  | false =>
      have some := tailing.sound.isEmpty_eq_false_iff.mp empty
      rw [← Bool.not_eq_true, Option.isNone_iff_eq_none,
        tailing.sound.edge?_eq_none_iff]
      exact some

theorem Anchored.takesFetched {session : Session} (anchored : session.Anchored)
    {reply : Reply} {log : OpenLog} {message : Message} {page : Page}
    {movement : Movement} {window : Window}
    (made : reply.request ∈ session.sent)
    (awaits : session.Awaits reply.request log)
    (merged : log.window.mergeFetched page (fetchedBy reply.request message) =
      .ok (movement, window)) :
    log.window.TakesFetched page (fetchedBy reply.request message) movement
      window ∧ window.Tailing := by
  have tailing := anchored.tailing log awaits.opened
  have takes := tailing.sound.mergeFetched merged
  refine ⟨takes, takes.tailing tailing (anchored.older _ made) ?_⟩
  exact anchored.unanchored made awaits

theorem Delivered.anchored {session after : Session} {reply : Reply}
    {outcome : Except SessionError Movement}
    (delivered : session.Delivered reply outcome after)
    (anchored : session.Anchored) (made : reply.request ∈ session.sent) :
    after.Anchored := by
  have tracked := delivered.tracked anchored.tracked
  have edge := anchored.older _ made
  cases delivered with
  | dropped unwanted late => exact anchored
  | discarded awaits discards =>
      rw [edge]
      exact anchored.freed _
  | refetched awaits open_ result tagged paged gap =>
      rw [edge]
      exact (requested _ _).anchored (anchored.freed _)
  | merged awaits open_ result tagged same paged merged =>
      obtain ⟨_, tailing⟩ := anchored.takesFetched made awaits merged
      refine ⟨tracked, anchored.bounded, ?_, anchored.older, ?_⟩
      · intro log opened
        cases opened
        exact tailing.tailing_enforceBound anchored.bounded _ _ _
      · intro request member holds
        have idle : (session.freed reply.request.edge .idle).slots.isInFlight
            .older = false := by
          rw [edge]
          rfl
        exact (Slots.not_holds_of_idle (anchored.older request member) idle
          holds).elim

/-- While a request is in flight, a push leaves the oldest record and the flag
of the older edge as they are. -/
theorem Anchored.settleWindow_older {session : Session}
    (anchored : session.Anchored) {log : OpenLog}
    (opened : session.opened = some log)
    (flying : session.slots.isInFlight .older = true)
    (live : log.window.reached.newer = true) {page : Page}
    {movement : Movement} {window : Window}
    (takes : log.window.TakesPushed page movement window) :
    window.enforceBound session.bound .newer session.slots.isInFlight movement =
      (movement, window) ∧
    window.edge? .older = log.window.edge? .older ∧
    window.reached = log.window.reached := by
  have tailing := anchored.tailing log opened
  obtain ⟨other, request, made, isOpen, _, holds⟩ :=
    anchored.older_holder flying
  cases opened.symm.trans isOpen
  have open_ := (anchored.anchor request made holds log opened).2
  have some : log.window.records ≠ [] := by
    intro empty
    have both := tailing.blank empty
    rw [open_, live] at both
    cases both
  refine ⟨?_, takes.edge?_older tailing.sound some, takes.reached⟩
  exact (takes.tailing live tailing).enforceBound_of_inFlight anchored.bounded
    .newer flying movement

theorem Pushed.anchored {session after : Session} {message : Message}
    {outcome : Except SessionError Movement}
    (pushed : session.Pushed message outcome after)
    (anchored : session.Anchored) : after.Anchored := by
  have tracked := pushed.tracked anchored.tracked
  cases pushed with
  | closed | foreign | ignored | unordered | unmerged => exact anchored
  | @merged log page movement window opened same live paged merged =>
      have tailing := anchored.tailing log opened
      have takes := tailing.sound.mergeLive live merged
      have pushedTailing := takes.tailing live tailing
      refine ⟨tracked, anchored.bounded, ?_, anchored.older, ?_⟩
      · intro other isOpen
        cases isOpen
        exact pushedTailing.tailing_enforceBound anchored.bounded _ _ _
      · intro request member holds other isOpen
        have flying := anchored.isInFlight_of_holds member holds
        obtain ⟨unchanged, edge, reached⟩ :=
          anchored.settleWindow_older opened flying live takes
        rw [opened_settleWindow, unchanged] at isOpen
        cases isOpen
        have before := anchored.anchor request member holds log opened
        show request.anchor = window.edge? .older ∧ window.reached.older = false
        rw [edge, reached]
        exact before

theorem Anchored.reopened {session : Session} (anchored : session.Anchored)
    (file : FileRef) : (session.reopened file).Anchored := by
  refine ⟨anchored.tracked.reopened file, anchored.bounded, ?_, anchored.older, ?_⟩
  · intro log opened
    cases opened
    exact Window.continuing_tailing _
  · intro request member holds
    exact (Slots.not_holds_of_idle (anchored.older request member) rfl holds).elim

theorem Anchored.openFile {session : Session} (anchored : session.Anchored)
    (file : FileRef) : (session.openFile file).2.Anchored :=
  (session.requested_openFile file).anchored (anchored.reopened file)

theorem Anchored.perform {session : Session} (anchored : session.Anchored)
    (operation : Operation) (admitted : session.Admits operation) :
    (session.perform operation).Anchored := by
  cases operation with
  | openFile file => exact anchored.openFile file
  | close =>
      refine ⟨anchored.tracked.close, anchored.bounded, ?_, anchored.older, ?_⟩
      · intro log opened
        cases opened
      · intro request member holds log opened
        cases opened
  | requestMore edge => exact (session.requested edge).anchored anchored
  | deliver reply => exact (session.delivered reply).anchored anchored admitted
  | push message => exact (session.pushed message).anchored anchored
  | subscribe | unsubscribe | take =>
      exact ⟨anchored.tracked.perform _, anchored.bounded, anchored.tailing,
        anchored.older, anchored.anchor⟩

theorem Reachable.anchored {fetchLimit : Nat} {bound : Option Nat}
    {session : Session} (reachable : Reachable fetchLimit bound session)
    (bounded : bound ≠ some 0) : session.Anchored :=
  reachable.invariant (Anchored.new fetchLimit bounded)
    fun _ operation anchored admitted => anchored.perform operation admitted

theorem Delivered.not_foreclosed {session after : Session} {reply : Reply}
    {outcome : Except SessionError Movement}
    (delivered : session.Delivered reply outcome after)
    (anchored : session.Anchored) (made : reply.request ∈ session.sent)
    (edge : Edge) : outcome ≠ .error (.stale (.foreclosedBoundary edge)) := by
  intro foreclosed
  cases delivered with
  | dropped unwanted late =>
      cases foreclosed
      exact late edge rfl
  | discarded awaits discards =>
      cases discards with
      | foreclosed result reached =>
          have open_ :=
            (anchored.anchor _ made awaits.holds _ awaits.opened).2
          rw [anchored.older _ made, PerEdge.get, open_] at reached
          cases reached
      | failed | keepalive | foreign | unordered => cases foreclosed
  | refetched awaits open_ result tagged paged gap => cases foreclosed
  | merged awaits open_ result tagged same paged merged => cases foreclosed

/-- A slot is held by a request that was made, and its anchor is the position
held at its edge, which has not been reached.  No operation moves this edge
while the request is in flight, and no reply to a request that was made finds
its edge reached. -/
theorem Reachable.pending_anchored {fetchLimit : Nat} {bound : Option Nat}
    {session : Session} (reachable : Reachable fetchLimit bound session)
    (bounded : bound ≠ some 0) :
    (∀ edge, session.slots.isInFlight edge = true →
      ∃ request ∈ session.sent, request.edge = edge ∧
        session.slots.holds request = true) ∧
    (∀ request ∈ session.sent, session.slots.holds request = true →
      ∃ log, session.opened = some log ∧
        request.anchor = log.window.edge? request.edge ∧
        (request.anchor = none ↔ log.window.records = []) ∧
        log.window.reached.get request.edge = false) ∧
    (∀ request ∈ session.sent, session.slots.holds request = true →
      ∀ operation, session.Admits operation →
        (session.perform operation).slots.holds request = true →
        (session.perform operation).edge? request.edge =
          session.edge? request.edge) ∧
    ∀ reply, reply.request ∈ session.sent → ∀ edge,
      (session.deliver reply).1 ≠
        .error (.stale (.foreclosedBoundary edge)) := by
  have anchored := reachable.anchored bounded
  refine ⟨?_, ?_, ?_, ?_⟩
  · intro edge flying
    cases edge with
    | older =>
        obtain ⟨_, request, made, _, edge, holds⟩ :=
          anchored.older_holder flying
        exact ⟨request, made, edge, holds⟩
    | newer =>
        rw [anchored.newer_idle] at flying
        cases flying
  · intro request made holds
    obtain ⟨log, awaits⟩ := anchored.tracked.awaits made holds
    have sound := (anchored.tailing log awaits.opened).sound
    obtain ⟨anchor, open_⟩ :=
      anchored.anchor request made holds log awaits.opened
    rw [anchored.older request made]
    refine ⟨log, awaits.opened, anchor, ?_, open_⟩
    rw [anchor, sound.edge?_eq_none_iff]
  · intro request made holds operation admitted holdsAfter
    have after := anchored.perform operation admitted
    have madeAfter := session.sent_subset_perform operation made
    rw [anchored.older request made, ← anchored.edge?_eq made holds,
      ← after.edge?_eq madeAfter holdsAfter]
  · intro reply made edge
    exact (session.delivered reply).not_foreclosed anchored made edge

/-- The last two records of a file were read and older ones are asked for when
newer ones are pushed. -/
def pagingBack : List Operation :=
  [.openFile { name := "app.log" },
    .deliver {
      request := firstRequest
      result := .ok { source := some { name := "app.log" }
                      records := [{ position := 4 }, { position := 5 }] } },
    .requestMore .older,
    .push { records := [{ position := 6 }, { position := 7 }] }]

theorem Reachable.anchored_while_paging_back :
    ∃ request ∈ ((new 2 (some 3)).run pagingBack).sent,
      ((new 2 (some 3)).run pagingBack).slots.holds request = true ∧
      ∃ log, ((new 2 (some 3)).run pagingBack).opened = some log ∧
        request.anchor = log.window.edge? request.edge ∧
        log.window.reached.get request.edge = false := by
  have reachable : Reachable 2 (some 3) ((new 2 (some 3)).run pagingBack) :=
    ⟨pagingBack, by decide, rfl⟩
  have facts := reachable.pending_anchored (by decide)
  obtain ⟨request, made, _, holds⟩ := facts.1 .older (by decide)
  obtain ⟨log, opened, anchor, _, open_⟩ := facts.2.1 request made holds
  exact ⟨request, made, holds, log, opened, anchor, open_⟩

end LogPager.Session
