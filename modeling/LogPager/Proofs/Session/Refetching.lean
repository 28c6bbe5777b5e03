import LogPager.Proofs.Session.Refusals

/-!
# What a reply leaves in the slot of its request

Every ending of a delivery frees the slot first.  Only a gap asks again, and
then the window holds records, so that the new request goes on from the held
edge unless the window is full at the live end.
-/

namespace LogPager

namespace Window

theorem Sound.isEmpty_of_refused {window : Window} (sound : window.Sound)
    {page : Page} {fetched : Fetched} {error : SpliceError}
    (refused : window.mergeFetched page fetched = .error error) :
    window.isEmpty = false := by
  cases empty : window.isEmpty with
  | false => rfl
  | true =>
      have none := sound.isEmpty_iff.mp empty
      obtain ⟨grown, filled⟩ := sound.fill_of_empty none page fetched.edge
      unfold Window.mergeFetched at refused
      simp [empty, filled, bind, Except.bind, pure, Except.pure] at refused

/-- As many records are held as the bound allows, up to the live end. -/
def FullAtLiveEnd (window : Window) (bound : Option Nat) : Prop :=
  window.isFull bound = true ∧ window.reached.newer = true

instance (window : Window) (bound : Option Nat) :
    Decidable (window.FullAtLiveEnd bound) :=
  inferInstanceAs (Decidable (_ ∧ _))

end Window

namespace Session

/-- At a free edge that is not reached, a window with records is extended from
its held edge, unless it is full. -/
theorem requestMore_of_open {session : Session} {log : OpenLog} {edge : Edge}
    (opened : session.opened = some log)
    (some : log.window.isEmpty = false)
    (open_ : log.window.reached.get edge = false)
    (free : session.slots.isInFlight edge = false) :
    session.requestMore edge =
      if log.window.FullAtLiveEnd session.bound then (false, session)
      else (true,
        { session with
          slots := session.slots.occupied edge
          sent := session.sent ++
            [session.slots.nextRequest log.file edge (log.window.edge? edge)
              session.fetchLimit] }) := by
  have asks : session.target? log.window edge =
      if log.window.FullAtLiveEnd session.bound then none
      else Option.some (edge, log.window.edge? edge, false) := by
    cases edge with
    | older =>
        rw [← open_]
        simp [target?, some, Window.FullAtLiveEnd, and_comm]
    | newer =>
        -- The newer edge is not reached, so no live end is held.
        have away : log.window.reached.newer = false := open_
        simp [target?, some, Window.FullAtLiveEnd, away, PerEdge.get]
  by_cases full : log.window.FullAtLiveEnd session.bound
  · simp [requestMore, opened, asks, full]
  · simp [requestMore, opened, asks, full, Slots.issue_eq, free]

theorem isInFlight_freed (session : Session) (edge : Edge)
    (status : SlotStatus) :
    (session.freed edge status).slots.isInFlight edge = false := by
  simp [freed, Slots.freed, Slots.isInFlight]

/-- A reply was refused because records are missing between it and an edge. -/
def FindsGap (outcome : Except SessionError Movement) (edge : Edge) : Prop :=
  ∃ held received, outcome = .error (.splice (.gap edge held received))

/-- One request was made for an edge, from the record held there, and it holds
the slot. -/
def AsksAgain (session after : Session) (edge : Edge) : Prop :=
  ∃ request, after.sent = session.sent ++ [request] ∧
    after.slots.holds request = true ∧
    request.edge = edge ∧
    request.anchor = after.edge? edge

/-- The slot of an edge is free and no request was made. -/
structure Rests (session after : Session) (edge : Edge) : Prop where
  free : after.slots.isInFlight edge = false
  sent : after.sent = session.sent

theorem Discards.not_findsGap {log : OpenLog} {reply : Reply}
    {outcome : Except SessionError Movement} {status : SlotStatus}
    (discards : Discards log reply outcome status) (edge : Edge) :
    ¬FindsGap outcome edge := by
  rintro ⟨held, received, gap⟩
  cases discards <;> cases gap

/-- After a gap the missing records are asked for from the held edge, unless
the window is full at the live end. -/
theorem requestMore_freed {session : Session} {log : OpenLog} {edge : Edge}
    (opened : session.opened = some log)
    (some : log.window.isEmpty = false)
    (open_ : log.window.reached.get edge = false) :
    let after := ((session.freed edge .idle).requestMore edge).2
    (log.window.FullAtLiveEnd session.bound → session.Rests after edge) ∧
      (¬log.window.FullAtLiveEnd session.bound →
        session.AsksAgain after edge) := by
  have free := session.isInFlight_freed edge .idle
  have stays : (session.freed edge .idle).opened = Option.some log := opened
  have asked := requestMore_of_open stays some open_ free
  have bound : (session.freed edge .idle).bound = session.bound := rfl
  rw [bound] at asked
  dsimp only
  constructor
  · intro full
    rw [asked, if_pos full]
    exact ⟨free, rfl⟩
  · intro roomy
    rw [asked, if_neg roomy]
    refine ⟨_, rfl, ?_, rfl, ?_⟩
    · simp [Slots.holds, Slots.occupied, Slots.nextRequest]
    · simp [Session.edge?, freed, opened, Slots.nextRequest]

/-- A reply to the request that holds its slot frees the slot, whatever it
brings.  It leaves the slot free and asks for nothing, except where it finds a
gap: then one new request for the same edge, anchored at the held edge, takes
the slot, unless the window is full at the live end. -/
theorem Reachable.frees_slot_or_asks_again {fetchLimit : Nat}
    {bound : Option Nat} {session : Session}
    (reachable : Reachable fetchLimit bound session) (bounded : bound ≠ some 0)
    {reply : Reply} (made : reply.request ∈ session.sent)
    (holds : session.slots.holds reply.request = true) :
    (session.deliver reply).2.slots.holds reply.request = false ∧
    ((∀ edge, ¬FindsGap (session.deliver reply).1 edge) →
      session.Rests (session.deliver reply).2 reply.request.edge) ∧
    ∀ edge, FindsGap (session.deliver reply).1 edge →
      edge = reply.request.edge ∧
      ∃ log, (session.deliver reply).2.opened = some log ∧
        (log.window.FullAtLiveEnd bound →
          session.Rests (session.deliver reply).2 edge) ∧
        (¬log.window.FullAtLiveEnd bound →
          session.AsksAgain (session.deliver reply).2 edge) := by
  have anchored := reachable.anchored bounded
  have given := reachable.arises.bound_eq
  have delivered := session.delivered reply
  refine ⟨(delivered.spent_request anchored.tracked made).idle, ?_⟩
  generalize (session.deliver reply).1 = outcome at delivered ⊢
  generalize (session.deliver reply).2 = after at delivered ⊢
  cases delivered with
  | dropped unwanted late =>
      obtain ⟨log, awaits⟩ := anchored.tracked.awaits made holds
      exact (unwanted log awaits).elim
  | discarded awaits discards =>
      refine ⟨fun _ => ⟨session.isInFlight_freed _ _, rfl⟩, ?_⟩
      intro edge gap
      exact (discards.not_findsGap edge gap).elim
  | @refetched log _ _ _ held received awaits open_ result tagged paged gap =>
      constructor
      · intro none
        exact (none _ ⟨held, received, rfl⟩).elim
      · rintro edge ⟨_, _, same⟩
        cases same
        have sound := (anchored.tailing log awaits.opened).sound
        have asked := requestMore_freed awaits.opened
          (sound.isEmpty_of_refused gap) open_
        have stays : ((session.freed reply.request.edge .idle).requestMore
            reply.request.edge).2.opened = some log := by
          rw [(requested _ _).opened_eq]
          exact awaits.opened
        rw [given] at asked
        exact ⟨rfl, log, stays, asked⟩
  | merged awaits open_ result tagged same paged merged =>
      refine ⟨fun _ => ⟨session.isInFlight_freed _ _, rfl⟩, ?_⟩
      rintro edge ⟨_, _, gap⟩
      cases gap

/-- A reply to the request for the records before the fourth that ends at the
second. -/
private def skippingReply : Reply where
  request :=
    { id := 2, epoch := 1, file := { name := "app.log" }, edge := .older
      anchor := some 4, limit := 2, token := ⟨1⟩ }
  result := .ok
    { source := some { name := "app.log" }
      records := [{ position := 1 }, { position := 2 }] }

/-- Without a bound the skipped record is asked for again; a window of four
that may hold three is too full for it. -/
theorem Reachable.asks_again_unless_full :
    ((new 2 none).run pagingBack).AsksAgain
      (((new 2 none).run pagingBack).deliver skippingReply).2 .older ∧
    ((new 2 (some 3)).run pagingBack).Rests
      (((new 2 (some 3)).run pagingBack).deliver skippingReply).2 .older := by
  constructor
  · have reachable : Reachable 2 none ((new 2 none).run pagingBack) :=
      ⟨pagingBack, by decide, rfl⟩
    have made : skippingReply.request ∈
        ((new 2 none).run pagingBack).sent := by decide
    have facts := reachable.frees_slot_or_asks_again (by decide) made (by decide)
    obtain ⟨_, log, opened, _, roomy⟩ := facts.2.2 .older ⟨4, 2, by decide⟩
    exact roomy (by simp [Window.FullAtLiveEnd, Window.isFull])
  · have reachable : Reachable 2 (some 3) ((new 2 (some 3)).run pagingBack) :=
      ⟨pagingBack, by decide, rfl⟩
    have made : skippingReply.request ∈
        ((new 2 (some 3)).run pagingBack).sent := by decide
    have facts := reachable.frees_slot_or_asks_again (by decide) made (by decide)
    obtain ⟨_, log, opened, full, _⟩ := facts.2.2 .older ⟨4, 2, by decide⟩
    cases opened
    exact full (by decide)

end Session
end LogPager
