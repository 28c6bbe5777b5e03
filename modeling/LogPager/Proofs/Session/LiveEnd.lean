import LogPager.Proofs.Session.Anchors
import LogPager.Proofs.Session.CatchingUp

/-!
# A session stays at the live end of its file

While the bound is positive, what a session evicts are always its oldest
records, so the newest held position never decreases while a file is open.
-/

namespace LogPager

@[simp] theorem Movement.evicted_newer_combine (first second : Movement) :
    (first.combine second).evicted.newer =
      first.evicted.newer + second.evicted.newer := rfl

namespace Session

theorem keepsPosition_of_opened_eq {session after : Session}
    (same : after.opened = session.opened) (edge : Edge) :
    KeepsPosition (session.edge? edge) (after.edge? edge) := by
  rw [edge?, edge?, same]
  exact .refl _

private theorem keepsNewest_settleWindow {session : Session}
    (bounded : session.bound ≠ some 0) {log : OpenLog} {window : Window}
    (opened : session.opened = some log) (tailing : window.Tailing)
    (keeps : KeepsPosition (log.window.edge? .newer) (window.edge? .newer))
    (file : FileRef) (grown : Edge) (movement : Movement) :
    KeepsPosition (session.edge? .newer)
      ((session.settleWindow { file, window } grown movement).2.edge?
        .newer) := by
  rw [edge?, edge?, opened, opened_settleWindow]
  apply keeps.trans
  exact tailing.keepsNewest_enforceBound bounded grown _ movement

private theorem evicted_newer_settleWindow {session : Session}
    (bounded : session.bound ≠ some 0) {window : Window}
    (tailing : window.Tailing) (file : FileRef) (grown : Edge)
    {movement : Movement} (nothing : movement.evicted.newer = 0) :
    (session.settleWindow { file, window } grown movement).1.evicted.newer =
      0 := by
  rw [fst_settleWindow, tailing.evicted_newer_enforceBound bounded]
  exact nothing

theorem Delivered.keepsNewest {session after : Session} {reply : Reply}
    {outcome : Except SessionError Movement}
    (delivered : session.Delivered reply outcome after)
    (anchored : session.Anchored) (made : reply.request ∈ session.sent) :
    KeepsPosition (session.edge? .newer) (after.edge? .newer) := by
  cases delivered with
  | dropped | discarded => exact keepsPosition_of_opened_eq rfl _
  | refetched awaits open_ result tagged paged gap =>
      exact keepsPosition_of_opened_eq
        (requested (session.freed _ _) _).opened_eq _
  | @merged log _ _ _ _ _ awaits open_ result tagged same paged merged =>
      obtain ⟨takes, tailing⟩ := anchored.takesFetched made awaits merged
      have sound := (anchored.tailing log awaits.opened).sound
      have settled : (session.freed reply.request.edge .idle).opened =
          some log := awaits.opened
      have bounded : (session.freed reply.request.edge .idle).bound ≠ some 0 :=
        anchored.bounded
      exact keepsNewest_settleWindow bounded settled tailing
        (takes.keepsNewest sound) _ _ _

theorem Delivered.evicted_newer {session after : Session} {reply : Reply}
    {movement : Movement}
    (delivered : session.Delivered reply (.ok movement) after)
    (anchored : session.Anchored) (made : reply.request ∈ session.sent) :
    movement.evicted.newer = 0 := by
  generalize ending : Except.ok movement = outcome at delivered
  cases delivered with
  | dropped | refetched => cases ending
  | discarded awaits discards =>
      cases discards with
      | keepalive result source =>
          cases ending
          rfl
      | failed | foreclosed | foreign | unordered => cases ending
  | merged awaits open_ result tagged same paged merged =>
      cases ending
      obtain ⟨takes, tailing⟩ := anchored.takesFetched made awaits merged
      have bounded : (session.freed reply.request.edge .idle).bound ≠ some 0 :=
        anchored.bounded
      apply evicted_newer_settleWindow bounded tailing
      rw [takes.movement]
      rfl

theorem Pushed.keepsNewest {session after : Session} {message : Message}
    {outcome : Except SessionError Movement}
    (pushed : session.Pushed message outcome after)
    (anchored : session.Anchored) :
    KeepsPosition (session.edge? .newer) (after.edge? .newer) := by
  cases pushed with
  | closed | foreign | ignored | unordered | unmerged =>
      exact keepsPosition_of_opened_eq rfl _
  | merged opened same live paged merged =>
      have tailing := anchored.tailing _ opened
      have takes := tailing.sound.mergeLive live merged
      exact keepsNewest_settleWindow anchored.bounded opened
        (takes.tailing live tailing) (takes.keepsNewest tailing.sound) _ _ _

theorem Pushed.evicted_newer {session after : Session} {message : Message}
    {movement : Movement}
    (pushed : session.Pushed message (.ok movement) after)
    (anchored : session.Anchored) : movement.evicted.newer = 0 := by
  generalize ending : Except.ok movement = outcome at pushed
  cases pushed with
  | closed | foreign | unordered | unmerged => cases ending
  | ignored =>
      cases ending
      rfl
  | merged opened same live paged merged =>
      cases ending
      have tailing := anchored.tailing _ opened
      have takes := tailing.sound.mergeLive live merged
      apply evicted_newer_settleWindow anchored.bounded
        (takes.tailing live tailing)
      rw [takes.movement]
      rfl

theorem Anchored.evicted_newer {session : Session} (anchored : session.Anchored)
    {operation : Operation} (admitted : session.Admits operation)
    {movement : Movement}
    (reported : session.report? operation = some (.ok movement)) :
    movement.evicted.newer = 0 := by
  cases operation with
  | deliver reply =>
      have delivered := session.delivered reply
      rw [Option.some.inj reported] at delivered
      exact delivered.evicted_newer anchored admitted
  | push message =>
      have pushed := session.pushed message
      rw [Option.some.inj reported] at pushed
      exact pushed.evicted_newer anchored
  | openFile | close | requestMore | subscribe | unsubscribe | take =>
      cases reported

theorem Anchored.collect_evicted_newer {session : Session}
    (anchored : session.Anchored) {reply : Reply}
    (admitted : session.Admits (.deliver reply)) {total : Movement}
    (nothing : total.evicted.newer = 0) :
    (collect (total, session) reply).1.evicted.newer = 0 := by
  have delivered := session.delivered reply
  unfold collect
  cases step : session.deliver reply with
  | mk outcome later =>
      rw [step] at delivered
      cases outcome with
      | error error => exact nothing
      | ok movement =>
          have moved := delivered.evicted_newer anchored admitted
          show (total.combine movement).evicted.newer = 0
          rw [Movement.evicted_newer_combine, nothing, moved]

theorem Anchored.deliverAll_evicted_newer {session : Session}
    (anchored : session.Anchored) {replies : List Reply}
    (admitted : session.AdmitsAll (replies.map .deliver)) :
    (session.deliverAll replies).1.evicted.newer = 0 := by
  -- The fold is followed from an arbitrary total that has nothing evicted yet.
  have following : ∀ total : Movement, total.evicted.newer = 0 →
      (replies.foldl collect (total, session)).1.evicted.newer = 0 := by
    induction replies generalizing session with
    | nil => exact fun _ nothing => nothing
    | cons reply replies ih =>
        intro total nothing
        obtain ⟨first, rest⟩ := admitted
        have after := anchored.perform (.deliver reply) first
        have collected := anchored.collect_evicted_newer first nothing
        have same := collect_session total session reply
        rw [List.foldl_cons]
        cases step : collect (total, session) reply with
        | mk later session' =>
            rw [step] at collected same
            cases same
            exact ih after rest later collected
  rw [deliverAll_eq]
  exact following {} rfl

theorem CatchesUp.evicted_newer
    {readAfter : σ → Option Nat → Except ReadError Message × σ}
    {batch reads : Nat} {source after : σ} {session later : Session}
    {total : Movement} {outcome : Option (Except SessionError Movement)}
    (catchesUp : CatchesUp readAfter batch reads source session total outcome
      after later)
    (anchored : session.Anchored) (nothing : total.evicted.newer = 0)
    {movement : Movement} (reported : outcome = some (.ok movement)) :
    movement.evicted.newer = 0 := by
  induction catchesUp with
  | away =>
      cases reported
      exact nothing
  | exhausted | unread | refused => cases reported
  | @finished _ _ _ session _ _ _ message live read pushed last =>
      cases reported
      have step := session.pushed message
      rw [pushed] at step
      have moved := step.evicted_newer anchored
      rw [Movement.evicted_newer_combine, nothing, moved]
  | @onward _ _ _ _ session _ _ _ _ message _ live read pushed full moved rest ih =>
      have step := session.pushed message
      rw [pushed] at step
      have moved := step.evicted_newer anchored
      apply ih (step.anchored anchored) _ reported
      rw [Movement.evicted_newer_combine, nothing, moved]

theorem Anchored.perform_keepsNewest {session : Session}
    (anchored : session.Anchored) {operation : Operation}
    (admitted : session.Admits operation) (keeps : operation.KeepsFile) :
    KeepsPosition (session.edge? .newer)
      ((session.perform operation).edge? .newer) := by
  cases operation with
  | openFile | close => cases keeps
  | requestMore edge =>
      exact keepsPosition_of_opened_eq (session.requested edge).opened_eq _
  | deliver reply => exact (session.delivered reply).keepsNewest anchored admitted
  | push message => exact (session.pushed message).keepsNewest anchored
  | subscribe | unsubscribe | take => exact keepsPosition_of_opened_eq rfl _

theorem Anchored.run_keepsNewest {session : Session}
    (anchored : session.Anchored) {operations : List Operation}
    (admitted : session.AdmitsAll operations)
    (keep : ∀ operation ∈ operations, operation.KeepsFile) :
    KeepsPosition (session.edge? .newer)
      ((session.run operations).edge? .newer) := by
  induction operations generalizing session with
  | nil => exact .refl _
  | cons operation rest ih =>
      have first := anchored.perform_keepsNewest admitted.1
        (keep operation List.mem_cons_self)
      apply first.trans
      apply ih (anchored.perform operation admitted.1) admitted.2
      intro later member
      exact keep later (List.mem_cons_of_mem _ member)

theorem Anchored.eq_of_holds {session : Session} (anchored : session.Anchored)
    {left right : Request} (leftMade : left ∈ session.sent)
    (rightMade : right ∈ session.sent)
    (leftHolds : session.slots.holds left = true)
    (rightHolds : session.slots.holds right = true) : left = right := by
  obtain ⟨holder, slot, leftId⟩ := Slots.holds_iff.mp leftHolds
  obtain ⟨other, otherSlot, rightId⟩ := Slots.holds_iff.mp rightHolds
  rw [anchored.older left leftMade] at slot
  rw [anchored.older right rightMade, slot] at otherSlot
  cases otherSlot
  exact anchored.tracked.eq_of_id_eq leftMade rightMade
    (leftId.symm.trans rightId)

/-- A window that holds anything holds the live end.  Every request ever made
is for older records, and one at most is in flight.  Nothing is ever evicted at
the newer edge, and while the same window is open its newest position never
decreases. -/
theorem Reachable.stays_at_live_end {fetchLimit : Nat} {bound : Option Nat}
    {session : Session} (reachable : Reachable fetchLimit bound session)
    (bounded : bound ≠ some 0) :
    (∀ log, session.opened = some log → log.window.records ≠ [] →
      log.window.reached.newer = true) ∧
    (∀ request ∈ session.sent, request.edge = .older) ∧
    (session.slots.isInFlight .newer = false ∧
      ∀ left ∈ session.sent, ∀ right ∈ session.sent,
        session.slots.holds left = true → session.slots.holds right = true →
          left = right) ∧
    (∀ operation, session.Admits operation →
      ∀ movement, session.report? operation = some (.ok movement) →
        movement.evicted.newer = 0) ∧
    (∀ replies, session.AdmitsAll (replies.map .deliver) →
      (session.deliverAll replies).1.evicted.newer = 0) ∧
    (∀ (σ : Type) (readAfter : σ → Option Nat → Except ReadError Message × σ)
      batch reads source movement,
      (session.catchUp readAfter batch reads source {}).1 =
          some (.ok movement) →
        movement.evicted.newer = 0) ∧
    ∀ operations, session.AdmitsAll operations →
      (∀ operation ∈ operations, operation.KeepsFile) →
      ∀ position, session.edge? .newer = some position →
        ∃ later, (session.run operations).edge? .newer = some later ∧
          position ≤ later := by
  have anchored := reachable.anchored bounded
  refine ⟨?_, anchored.older, ⟨anchored.newer_idle, ?_⟩, ?_, ?_, ?_, ?_⟩
  · intro log opened some
    exact (anchored.tailing log opened).live some
  · intro left leftMade right rightMade leftHolds rightHolds
    exact anchored.eq_of_holds leftMade rightMade leftHolds rightHolds
  · intro operation admitted movement reported
    exact anchored.evicted_newer admitted reported
  · intro replies admitted
    exact anchored.deliverAll_evicted_newer admitted
  · intro σ readAfter batch reads source movement reported
    exact (catchesUp readAfter batch reads source session {}).evicted_newer
      anchored rfl reported
  · intro operations admitted keep
    exact anchored.run_keepsNewest admitted keep

theorem Reachable.newest_kept_while_paging_back :
    ∃ later, ((new 2 (some 3)).run
        (pagingBack ++ [.push { records := [{ position := 8 }] }])).edge? .newer =
      some later ∧ 7 ≤ later := by
  have reachable : Reachable 2 (some 3) ((new 2 (some 3)).run pagingBack) :=
    ⟨pagingBack, by decide, rfl⟩
  have keeps := (reachable.stays_at_live_end (by decide)).2.2.2.2.2.2
  rw [run_append]
  exact keeps [.push { records := [{ position := 8 }] }]
    (by decide) (by simp [Operation.KeepsFile]) 7 (by decide)

end Session
end LogPager
