import LogPager.Proofs.Session.LiveEnd
import LogPager.Proofs.Session.Refusals

/-!
# How far records shift

The index of a record that stays held grows by the records put before it and
shrinks by those evicted before it.  As nothing is evicted at the newer edge,
operations on the open file shift the records in all by as many as are held
afterwards more than before, without those put at the newer edge.  Replies taken
in turn, and a live tail that catches up, report what single operations moved
one after another.
-/

namespace LogPager

theorem Movement.indexShift_combine (first second : Movement) :
    (first.combine second).indexShift =
      first.indexShift + second.indexShift := by
  have added := Movement.added_combine first second .older
  have evicted := Movement.evicted_combine first second .older
  simp only [PerEdge.get] at added evicted
  simp only [indexShift, added, evicted]
  omega

namespace Movement

@[simp] theorem combine_empty (movement : Movement) :
    movement.combine {} = movement := rfl

@[simp] theorem empty_combine (movement : Movement) :
    Movement.combine {} movement = movement := by
  simp [combine, PerEdge.zipWith, PerEdge.both]

theorem combine_assoc (first second third : Movement) :
    (first.combine second).combine third =
      first.combine (second.combine third) := by
  simp [combine, PerEdge.zipWith, Nat.add_assoc]

end Movement

/-- The held records after a movement that evicts none of the newest: their
count tells the shift. -/
theorem Movement.Accounts.indexShift_eq {movement : Movement}
    {front before back after : List Record}
    (accounts : movement.Accounts front before back after)
    (kept : movement.evicted.newer = 0) :
    movement.indexShift =
      after.length - before.length - movement.added.newer := by
  have length := accounts.length_eq
  simp only [Movement.indexShift]
  omega

namespace Session

/-- What an operation moved, nothing where it was refused. -/
def moved (session : Session) (operation : Operation) : Movement :=
  match session.report? operation with
  | some (.ok movement) => movement
  | _ => {}

/-- What operations moved one after another. -/
def movedBy (session : Session) : List Operation → Movement
  | [] => {}
  | operation :: rest =>
      (session.moved operation).combine
        ((session.perform operation).movedBy rest)

theorem moved_of_report {session : Session} {operation : Operation}
    {movement : Movement}
    (reported : session.report? operation = some (.ok movement)) :
    session.moved operation = movement := by
  rw [moved, reported]

theorem moved_of_unreported {session : Session} {operation : Operation}
    (unmoved : ∀ movement, session.report? operation ≠ some (.ok movement)) :
    session.moved operation = {} := by
  unfold moved
  split
  · rename_i movement reported
    exact (unmoved movement reported).elim
  · rfl

theorem collect_eq (total : Movement) (session : Session) (reply : Reply) :
    collect (total, session) reply =
      (total.combine (session.moved (.deliver reply)),
        session.perform (.deliver reply)) := by
  simp only [collect, moved, report?, perform]
  rcases session.deliver reply with ⟨error | movement, later⟩ <;> simp

theorem deliverAll_eq_run (session : Session) (replies : List Reply) :
    session.deliverAll replies =
      (session.movedBy (replies.map .deliver),
        session.run (replies.map .deliver)) := by
  have following : ∀ total : Movement,
      replies.foldl collect (total, session) =
        (total.combine (session.movedBy (replies.map .deliver)),
          session.run (replies.map .deliver)) := by
    induction replies generalizing session with
    | nil => exact fun _ => rfl
    | cons reply replies ih =>
        intro total
        rw [List.foldl_cons, collect_eq, ih, Movement.combine_assoc]
        rfl
  rw [deliverAll_eq, following, Movement.empty_combine]

/-- Catching up is pushing some messages, and it reports what they moved unless
it fails. -/
theorem CatchesUp.runs_pushes
    {readAfter : σ → Option Nat → Except ReadError Message × σ}
    {batch reads : Nat} {source after : σ} {session later : Session}
    {total : Movement} {outcome : Option (Except SessionError Movement)}
    (catchesUp : CatchesUp readAfter batch reads source session total outcome
      after later) :
    ∃ messages : List Message, session.run (messages.map .push) = later ∧
      ∀ movement, outcome = some (.ok movement) →
        movement = total.combine (session.movedBy (messages.map .push)) := by
  induction catchesUp with
  | away =>
      refine ⟨[], rfl, ?_⟩
      rintro movement ⟨⟩
      rfl
  | exhausted | unread => exact ⟨[], rfl, nofun⟩
  | @refused _ _ _ session _ _ message _ live read pushed =>
      refine ⟨[message], ?_, nofun⟩
      exact congrArg Prod.snd pushed
  | @finished _ _ _ session _ _ movement message live read pushed last =>
      have reported : session.report? (.push message) = some (.ok movement) :=
        congrArg (some ∘ Prod.fst) pushed
      refine ⟨[message], congrArg Prod.snd pushed, ?_⟩
      rintro other ⟨⟩
      rw [List.map_singleton, movedBy, moved_of_report reported]
      rfl
  | @onward _ _ _ _ session _ _ _ movement message _ live read pushed full moves
      rest ih =>
      obtain ⟨messages, ends, reports⟩ := ih
      have reported : session.report? (.push message) = some (.ok movement) :=
        congrArg (some ∘ Prod.fst) pushed
      have next : session.perform (.push message) = _ :=
        congrArg Prod.snd pushed
      refine ⟨message :: messages, ?_, ?_⟩
      · rw [List.map_cons, run, next]
        exact ends
      · intro other same
        rw [reports other same, List.map_cons, movedBy, next,
          moved_of_report reported, Movement.combine_assoc]

theorem Anchored.sound {session : Session} (anchored : session.Anchored) :
    session.Sound := by
  intro log opened
  exact (anchored.tailing log opened).sound

theorem Sound.moves_of_report {session : Session} (sound : session.Sound)
    {operation : Operation} {movement : Movement}
    (reported : session.report? operation = some (.ok movement)) :
    ∃ fetched received, session.Moves fetched received (.ok movement)
      (session.perform operation) := by
  cases operation with
  | deliver reply =>
      have moves := (session.delivered reply).moves sound
      rw [Option.some.inj reported] at moves
      exact ⟨_, _, moves⟩
  | push message =>
      have moves := (session.pushed message).moves sound
      rw [Option.some.inj reported] at moves
      exact ⟨_, _, moves⟩
  | openFile | close | requestMore | subscribe | unsubscribe | take =>
      cases reported

/-- What an operation reports accounts for the held records. -/
theorem Sound.accounts {session : Session} (sound : session.Sound)
    {operation : Operation} {movement : Movement}
    (reported : session.report? operation = some (.ok movement)) :
    ∃ front back, movement.Accounts front session.records back
      (session.perform operation).records := by
  obtain ⟨_, _, moves⟩ := sound.moves_of_report reported
  obtain ⟨front, back, accounts, _⟩ := (moves.tells sound).records
  exact ⟨front, back, accounts⟩

theorem records_perform_of_unmoved {session : Session} {operation : Operation}
    (keeps : operation.KeepsFile)
    (unmoved : ∀ movement, session.report? operation ≠ some (.ok movement)) :
    (session.perform operation).records = session.records := by
  cases operation with
  | openFile | close => cases keeps
  | requestMore edge => exact records_eq (session.requested edge).opened_eq
  | subscribe | unsubscribe | take => exact records_eq rfl
  | deliver reply =>
      cases taken : (session.deliver reply).1 with
      | error error =>
          have delivered := session.delivered reply
          rw [taken] at delivered
          exact delivered.undisturbed.records
      | ok movement => exact (unmoved movement (congrArg some taken)).elim
  | push message =>
      cases taken : (session.push message).1 with
      | error error =>
          have pushed := session.pushed message
          rw [taken] at pushed
          exact congrArg records pushed.eq_of_error
      | ok movement => exact (unmoved movement (congrArg some taken)).elim

/-- An operation on the open file shifts the records by as many as are held
afterwards more than before, without those put at the newer edge. -/
theorem Anchored.indexShift_moved {session : Session}
    (anchored : session.Anchored) {operation : Operation}
    (admitted : session.Admits operation) (keeps : operation.KeepsFile) :
    (session.moved operation).indexShift =
      ((session.perform operation).records.length : Int) -
        session.records.length - (session.moved operation).added.newer := by
  by_cases taken : ∃ movement, session.report? operation = some (.ok movement)
  · obtain ⟨movement, reported⟩ := taken
    obtain ⟨front, back, accounts⟩ := anchored.sound.accounts reported
    rw [moved_of_report reported]
    exact accounts.indexShift_eq (anchored.evicted_newer admitted reported)
  · have unmoved : ∀ movement,
        session.report? operation ≠ some (.ok movement) := not_exists.mp taken
    rw [moved_of_unreported unmoved, records_perform_of_unmoved keeps unmoved]
    simp [Movement.indexShift, PerEdge.both]

theorem Anchored.indexShift_run {session : Session}
    (anchored : session.Anchored) {operations : List Operation}
    (admitted : session.AdmitsAll operations)
    (keep : ∀ operation ∈ operations, operation.KeepsFile) :
    (session.movedBy operations).indexShift =
      ((session.run operations).records.length : Int) -
        session.records.length - (session.movedBy operations).added.newer := by
  induction operations generalizing session with
  | nil => simp [movedBy, run, Movement.indexShift, PerEdge.both]
  | cons operation rest ih =>
      have first := anchored.indexShift_moved admitted.1
        (keep operation List.mem_cons_self)
      have onward := ih (anchored.perform operation admitted.1) admitted.2
        fun later member => keep later (List.mem_cons_of_mem _ member)
      have added := Movement.added_combine (session.moved operation)
        ((session.perform operation).movedBy rest) .newer
      simp only [PerEdge.get] at added
      rw [movedBy, Movement.indexShift_combine, first, onward, added, run]
      omega

end Session
end LogPager
