import LogPager.Proofs.Session.Anchors
import LogPager.Proofs.Session.Movements
import LogPager.Proofs.Window.Newest

/-!
# How many records are held

Merging a reply, or a push while no request is in flight, leaves no more
records than the bound allows.  While a request is in flight pushes may exceed
the bound, and the merge of its reply brings the records back within it.  A
reply that is not merged frees its slot and leaves them as they are; so they
stay beyond the bound, without a request in flight, until the next merge.
-/

namespace LogPager

theorem Window.Tailing.length_enforceBound {window : Window}
    (tailing : window.Tailing) {bound : Option Nat} (bounded : bound ≠ some 0)
    (grown : Edge) {inFlight : Edge → Bool} (free : inFlight .older = false)
    (movement : Movement) {most : Nat} (given : bound = some most) :
    (window.enforceBound bound grown inFlight movement).2.length ≤ most := by
  have after := tailing.tailing_enforceBound bounded grown inFlight movement
  rw [after.sound.counted, tailing.records_enforceBound bounded grown free]
  exact Window.length_newest_le given _

namespace Session

/-- No more records are held than the bound allows. -/
def WithinBound (session : Session) : Prop :=
  ∀ most, session.bound = some most → session.held ≤ most

/-- The records of a reply are merged. -/
def merges (session : Session) (reply : Reply) : Bool :=
  match reply.result, (session.deliver reply).1 with
  | .ok message, .ok _ => message.source.isSome
  | _, _ => false

theorem merges_iff {session : Session} {reply : Reply} :
    session.merges reply = true ↔
      ∃ message movement, reply.result = .ok message ∧
        message.source.isSome = true ∧
          (session.deliver reply).1 = .ok movement := by
  unfold merges
  cases reply.result with
  | error error => simp
  | ok message => cases (session.deliver reply).1 <;> simp

/-- If a request waits for the reply, it is merged. -/
def LosesNoReply (session : Session) : Operation → Prop
  | .deliver reply =>
      session.slots.holds reply.request = true → session.merges reply = true
  | _ => True

/-- Every reply that a request waits for, where it comes, is merged. -/
def LosesNone (session : Session) : List Operation → Prop
  | [] => True
  | operation :: rest =>
      session.LosesNoReply operation ∧
        (session.perform operation).LosesNone rest

instance (session : Session) :
    (operation : Operation) → Decidable (session.LosesNoReply operation)
  | .deliver reply => inferInstanceAs (Decidable
      (session.slots.holds reply.request = true → session.merges reply = true))
  | .openFile _ | .close | .requestMore _ | .push _ | .subscribe
  | .unsubscribe _ | .take _ => inferInstanceAs (Decidable True)

instance decidableLosesNone (session : Session) :
    (operations : List Operation) → Decidable (session.LosesNone operations)
  | [] => inferInstanceAs (Decidable True)
  | operation :: rest =>
      have := decidableLosesNone (session.perform operation) rest
      inferInstanceAs (Decidable (session.LosesNoReply operation ∧
        (session.perform operation).LosesNone rest))

theorem WithinBound.of_opened {session after : Session}
    (within : session.WithinBound) (opened : after.opened = session.opened)
    (bound : after.bound = session.bound) : after.WithinBound := by
  intro most given
  rw [held, opened]
  exact within most (bound ▸ given)

theorem Anchored.hasPending_eq {session : Session}
    (anchored : session.Anchored) :
    session.hasPending = session.slots.isInFlight .older := by
  rw [hasPending, Slots.anyInFlight, anchored.newer_idle, Bool.or_false]

theorem withinBound_of_empty {session : Session} {log : OpenLog}
    (opened : session.opened = some log) (sound : log.window.Sound)
    (empty : log.window.records = []) : session.WithinBound := by
  intro most _
  rw [held, opened, Option.elim_some, sound.counted, empty]
  exact Nat.zero_le most

theorem withinBound_settleWindow {session : Session} {log : OpenLog}
    (tailing : log.window.Tailing) (bounded : session.bound ≠ some 0)
    (idle : session.slots.isInFlight .older = false) (grown : Edge)
    (movement : Movement) :
    (session.settleWindow log grown movement).2.WithinBound := by
  intro most given
  rw [held, opened_settleWindow, Option.elim_some]
  exact tailing.length_enforceBound bounded grown idle movement given

/-- A reply that is merged leaves no more records than the bound allows. -/
theorem Anchored.withinBound_deliver {session : Session}
    (anchored : session.Anchored) {reply : Reply}
    (made : reply.request ∈ session.sent)
    (merges : session.merges reply = true) :
    (session.deliver reply).2.WithinBound := by
  obtain ⟨message, movement, result, tagged, taken⟩ := merges_iff.mp merges
  have delivered := session.delivered reply
  rw [taken] at delivered
  generalize (session.deliver reply).2 = after at delivered
  cases delivered with
  | discarded awaits discards =>
      cases discards with
      | keepalive same source =>
          cases result.symm.trans same
          rw [source] at tagged
          cases tagged
  | merged awaits open_ _ _ same paged merged =>
      obtain ⟨_, tailing⟩ := anchored.takesFetched made awaits merged
      refine withinBound_settleWindow tailing ?_ ?_ _ _
      · exact anchored.bounded
      · rw [anchored.older _ made]
        rfl

theorem Pushed.withinBound {session after : Session} {message : Message}
    {outcome : Except SessionError Movement}
    (pushed : session.Pushed message outcome after)
    (anchored : session.Anchored)
    (idle : session.slots.isInFlight .older = false) {movement : Movement}
    (taken : outcome = .ok movement) : after.WithinBound := by
  cases pushed with
  | closed | foreign | unordered | unmerged => cases taken
  | @ignored log opened away =>
      -- Away from the live end the window holds nothing.
      have tailing := anchored.tailing log opened
      apply withinBound_of_empty opened tailing.sound
      by_contra some
      rw [tailing.live some] at away
      cases away
  | @merged log _ _ _ opened same live paged merged =>
      have tailing := anchored.tailing log opened
      have takes := tailing.sound.mergeLive live merged
      exact withinBound_settleWindow (takes.tailing live tailing)
        anchored.bounded idle _ _

/-- While no request is in flight, no more records are held than the bound
allows. -/
def RestsWithinBound (session : Session) : Prop :=
  session.hasPending = false → session.WithinBound

theorem Requested.restsWithinBound {session after : Session} {edge : Edge}
    {made : Bool} (requested : session.Requested edge made after)
    (anchored : session.Anchored) (rests : session.RestsWithinBound) :
    after.RestsWithinBound := by
  intro idle
  apply WithinBound.of_opened _ requested.opened_eq requested.bound_eq
  cases requested with
  | refused settled => exact rests idle
  | made opened target free =>
      obtain ⟨rfl, _, _⟩ := anchored.target opened target
      cases idle

theorem Anchored.restsWithinBound_deliver {session : Session}
    (anchored : session.Anchored) (rests : session.RestsWithinBound)
    {reply : Reply} (made : reply.request ∈ session.sent)
    (loses : session.LosesNoReply (.deliver reply)) :
    (session.deliver reply).2.RestsWithinBound := by
  by_cases holds : session.slots.holds reply.request = true
  · intro _
    exact anchored.withinBound_deliver made (loses holds)
  · obtain ⟨_, _, dropped⟩ := deliver_of_not_awaits
      fun log (awaits : session.Awaits reply.request log) => holds awaits.holds
    rw [dropped]
    exact rests

theorem Pushed.restsWithinBound {session after : Session} {message : Message}
    {outcome : Except SessionError Movement}
    (pushed : session.Pushed message outcome after)
    (anchored : session.Anchored) (rests : session.RestsWithinBound) :
    after.RestsWithinBound := by
  have step := pushed
  cases pushed with
  | closed | foreign | ignored | unordered | unmerged => exact rests
  | merged opened same live paged merged =>
      intro idle
      have before : session.hasPending = false := idle
      rw [anchored.hasPending_eq] at before
      exact step.withinBound anchored before rfl

theorem openFile_restsWithinBound (session : Session) (file : FileRef) :
    (session.openFile file).2.RestsWithinBound := by
  intro _
  have opened := (session.requested_openFile file).opened_eq
  exact withinBound_of_empty opened (Window.continuing_sound _) rfl

theorem Anchored.restsWithinBound_perform {session : Session}
    (anchored : session.Anchored) (rests : session.RestsWithinBound)
    {operation : Operation} (admitted : session.Admits operation)
    (loses : session.LosesNoReply operation) :
    (session.perform operation).RestsWithinBound := by
  cases operation with
  | openFile file => exact session.openFile_restsWithinBound file
  | close =>
      intro _ most _
      exact Nat.zero_le most
  | requestMore edge =>
      exact (session.requested edge).restsWithinBound anchored rests
  | deliver reply => exact anchored.restsWithinBound_deliver rests admitted loses
  | push message => exact (session.pushed message).restsWithinBound anchored rests
  | subscribe | unsubscribe | take => exact rests

theorem Anchored.restsWithinBound_run {session : Session}
    (anchored : session.Anchored) (rests : session.RestsWithinBound)
    {operations : List Operation} (admitted : session.AdmitsAll operations)
    (loses : session.LosesNone operations) :
    (session.run operations).RestsWithinBound := by
  induction operations generalizing session with
  | nil => exact rests
  | cons operation rest ih =>
      exact ih (anchored.perform operation admitted.1)
        (anchored.restsWithinBound_perform rests admitted.1 loses.1)
        admitted.2 loses.2

/-- A reply that is merged, and a push that is taken while no request is in
flight, leave no more records than the bound allows.  Over operations among
which every awaited reply is merged, there are no more of them whenever no
request is in flight, if there were none before. -/
theorem Reachable.held_le_bound {fetchLimit most : Nat} {session : Session}
    (reachable : Reachable fetchLimit (some most) session)
    (positive : 0 < most) :
    (∀ reply, reply.request ∈ session.sent → session.merges reply = true →
      (session.deliver reply).2.held ≤ most) ∧
    (∀ message movement, session.hasPending = false →
      (session.push message).1 = .ok movement →
        (session.push message).2.held ≤ most) ∧
    ∀ operations, session.AdmitsAll operations →
      session.LosesNone operations →
      (session.hasPending = false → session.held ≤ most) →
      (session.run operations).hasPending = false →
        (session.run operations).held ≤ most := by
  have bounded : some most ≠ some 0 := by
    intro zero
    cases zero
    exact Nat.lt_irrefl 0 positive
  have anchored := reachable.anchored bounded
  have given := reachable.arises.bound_eq
  refine ⟨?_, ?_, ?_⟩
  · intro reply made merges
    apply anchored.withinBound_deliver made merges
    exact (session.bound_perform (.deliver reply)).trans given
  · intro message movement idle taken
    rw [anchored.hasPending_eq] at idle
    apply (session.pushed message).withinBound anchored idle taken
    exact (session.bound_perform (.push message)).trans given
  · intro operations admitted loses within idle
    have rests : session.RestsWithinBound := by
      intro resting other same
      cases given.symm.trans same
      exact within resting
    apply anchored.restsWithinBound_run rests admitted loses idle
    exact (reachable.run admitted).arises.bound_eq

/-- Records were pushed while older ones were asked for, and this is answered. -/
def pagedBack (message : Message) : List Operation :=
  pagingBack ++ [.deliver {
    request := {
      id := 2, epoch := 1, file := { name := "app.log" }, edge := .older
      anchor := some 4, limit := 2, token := ⟨1⟩ }
    result := .ok message }]

theorem Reachable.held_le_bound_after_merge :
    ((new 2 (some 3)).run (pagedBack {
      source := some { name := "app.log" }
      records := [{ position := 2 }, { position := 3 }] })).held ≤ 3 := by
  have reachable : Reachable 2 (some 3) (new 2 (some 3)) :=
    ⟨[], by decide, rfl⟩
  apply (reachable.held_le_bound (by decide)).2.2
  · decide
  · decide
  · decide
  · decide

/-- A keepalive leaves four records where three are allowed. -/
theorem held_beyond_bound_after_keepalive :
    ¬∀ fetchLimit most session, Reachable fetchLimit (some most) session →
      0 < most → session.hasPending = false → session.held ≤ most := by
  intro within
  have reachable : Reachable 2 (some 3)
      ((new 2 (some 3)).run (pagedBack {})) :=
    ⟨pagedBack {}, by decide, rfl⟩
  have fewer := within 2 3 _ reachable (by decide) (by decide)
  exact absurd fewer (by decide)

end Session
end LogPager
