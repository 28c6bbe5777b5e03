import LogPager.Proofs.Session.Runs
import LogPager.Proofs.Window.Movements
import Mathlib.Algebra.GroupWithZero.Nat

/-!
# What replies and pushes move

Whatever replies and messages a session was given before, its window is sound,
and a reply or a push either leaves the window alone or changes it as the
reported movement says.  Replies taken in turn report the sum of what each of
them moved.
-/

namespace LogPager

/-- The records that a reply brings, none when the read failed. -/
def Reply.records (reply : Reply) : List Record :=
  match reply.result with
  | .ok message => message.records
  | .error _ => []

namespace Movement

theorem added_combine (first second : Movement) (edge : Edge) :
    (first.combine second).added.get edge =
      first.added.get edge + second.added.get edge :=
  PerEdge.get_zipWith _ _ _ edge

theorem evicted_combine (first second : Movement) (edge : Edge) :
    (first.combine second).evicted.get edge =
      first.evicted.get edge + second.evicted.get edge :=
  PerEdge.get_zipWith _ _ _ edge

theorem added_foldl_combine (movements : List Movement) (total : Movement)
    (edge : Edge) :
    (movements.foldl combine total).added.get edge =
      total.added.get edge + (movements.map (·.added.get edge)).sum := by
  induction movements generalizing total with
  | nil => simp
  | cons movement rest ih =>
      rw [List.foldl_cons, ih, added_combine, List.map_cons, List.sum_cons,
        Nat.add_assoc]

theorem evicted_foldl_combine (movements : List Movement) (total : Movement)
    (edge : Edge) :
    (movements.foldl combine total).evicted.get edge =
      total.evicted.get edge + (movements.map (·.evicted.get edge)).sum := by
  induction movements generalizing total with
  | nil => simp
  | cons movement rest ih =>
      rw [List.foldl_cons, ih, evicted_combine, List.map_cons, List.sum_cons,
        Nat.add_assoc]

end Movement

namespace Session

/-- The held records, oldest first. -/
def records (session : Session) : List Record :=
  session.snapshot.elim [] (·.records)

theorem records_of_closed {session : Session}
    (closed : session.opened = none) : session.records = [] := by
  simp [records, snapshot, closed]

theorem records_eq {session after : Session}
    (same : after.opened = session.opened) : after.records = session.records := by
  rw [records, records, snapshot, snapshot, same]

theorem view_of_opened {session : Session} {log : OpenLog}
    (opened : session.opened = some log) : session.view = log.window.view := by
  rw [view, opened]

theorem view_eq {session after : Session}
    (same : after.opened = session.opened)
    (retired : after.retired = session.retired) : after.view = session.view := by
  rw [view, view, same, retired]

/-- The window of the open file is sound. -/
def Sound (session : Session) : Prop :=
  ∀ log, session.opened = some log → log.window.Sound

theorem Sound.records_of_opened {session : Session} (sound : session.Sound)
    {log : OpenLog} (opened : session.opened = some log) :
    session.records = log.window.records := by
  simp [records, snapshot, opened, Snapshot.records, Window.snapshot,
    Window.records, (sound log opened).shown]

theorem Sound.held_eq {session : Session} (sound : session.Sound) :
    session.held = session.records.length := by
  cases opened : session.opened with
  | none =>
      rw [records_of_closed opened, held, opened]
      rfl
  | some log =>
      rw [sound.records_of_opened opened, held, opened]
      exact (sound log opened).counted

theorem Sound.of_opened {session after : Session} (sound : session.Sound)
    (same : after.opened = session.opened) : after.Sound := by
  intro log opened
  exact sound log (same ▸ opened)

/-- What a reply or a push does: the window is left alone, or it changes as
the reported movement says. -/
inductive Moves (session : Session) (fetched : Bool) (received : List Record) :
    Except SessionError Movement → Session → Prop where
  | still {outcome : Except SessionError Movement} {after : Session}
      (opened : after.opened = session.opened)
      (retired : after.retired = session.retired)
      (nothing : ∀ movement, outcome = .ok movement → movement = {}) :
      Moves session fetched received outcome after
  | merged {log : OpenLog} {file : FileRef} {window : Window}
      {movement : Movement} {after : Session}
      (opened : session.opened = some log)
      (settled : after.opened = some { file, window })
      (changes : log.window.Changes session.bound fetched received movement
        window) :
      Moves session fetched received (.ok movement) after

theorem Requested.retired_eq {session after : Session} {edge : Edge}
    {made : Bool} (requested : session.Requested edge made after) :
    after.retired = session.retired := by
  cases requested <;> rfl

theorem Requested.bound_eq {session after : Session} {edge : Edge}
    {made : Bool} (requested : session.Requested edge made after) :
    after.bound = session.bound := by
  cases requested <;> rfl

theorem Delivered.moves {session after : Session} {reply : Reply}
    {outcome : Except SessionError Movement}
    (delivered : session.Delivered reply outcome after)
    (sound : session.Sound) :
    session.Moves true reply.records outcome after := by
  cases delivered with
  | dropped unwanted late => exact .still rfl rfl nofun
  | discarded awaits discards =>
      apply Moves.still
      · rfl
      · rfl
      · intro movement moved
        cases discards with
        | keepalive result source =>
            cases moved
            rfl
        | failed | foreclosed | foreign | unordered => cases moved
  | refetched awaits open_ result tagged paged gap =>
      have again := requested (session.freed reply.request.edge .idle)
        reply.request.edge
      exact .still again.opened_eq again.retired_eq nofun
  | @merged log message source page movement window awaits open_ result tagged
      same paged merged =>
      have takes := (sound log awaits.opened).mergeFetched merged
      have brought : reply.records = page.records := by
        rw [Reply.records, result, Page.records_of_ofRecords paged]
      apply Moves.merged awaits.opened (opened_settleWindow _ _ _ _)
      rw [fst_settleWindow, brought]
      apply (takes.changes session.bound).enforceBound
      intro edge
      rw [takes.movement, Movement.evicted_add]

theorem Pushed.moves {session after : Session} {message : Message}
    {outcome : Except SessionError Movement}
    (pushed : session.Pushed message outcome after) (sound : session.Sound) :
    session.Moves false message.records outcome after := by
  cases pushed with
  | closed | foreign | unordered | unmerged => exact .still rfl rfl nofun
  | ignored opened away =>
      apply Moves.still
      · rfl
      · rfl
      · intro movement moved
        cases moved
        rfl
  | @merged log page movement window opened same live paged merged =>
      have takes := (sound log opened).mergeLive live merged
      apply Moves.merged opened (opened_settleWindow _ _ _ _)
      rw [fst_settleWindow, ← Page.records_of_ofRecords paged]
      apply (takes.changes session.bound).enforceBound
      intro edge
      rw [takes.movement, Movement.evicted_add]

theorem Moves.sound {session after : Session} {fetched : Bool}
    {received : List Record} {outcome : Except SessionError Movement}
    (moves : session.Moves fetched received outcome after)
    (sound : session.Sound) : after.Sound := by
  cases moves with
  | still opened retired nothing => exact sound.of_opened opened
  | merged opened settled changes =>
      intro log isOpen
      cases settled.symm.trans isOpen
      exact changes.sound

theorem Sound.new (fetchLimit : Nat) (bound : Option Nat) :
    (Session.new fetchLimit bound).Sound := by
  intro log opened
  cases opened

theorem Sound.openFile {session : Session} (file : FileRef) :
    (session.openFile file).2.Sound := by
  have fresh : (session.reopened file).Sound := by
    intro log opened
    cases opened
    exact Window.continuing_sound _
  exact fresh.of_opened (session.requested_openFile file).opened_eq

theorem Sound.perform {session : Session} (sound : session.Sound)
    (operation : Operation) : (session.perform operation).Sound := by
  cases operation with
  | openFile file => exact Sound.openFile file
  | close => exact nofun
  | requestMore edge => exact sound.of_opened (session.requested edge).opened_eq
  | deliver reply => exact ((session.delivered reply).moves sound).sound sound
  | push message => exact ((session.pushed message).moves sound).sound sound
  | subscribe | unsubscribe | take => exact sound.of_opened rfl

theorem Sound.after_run {session : Session} (sound : session.Sound)
    (operations : List Operation) : (session.run operations).Sound :=
  kept_run (fun _ operation sound => sound.perform operation) sound operations

theorem Arises.sound {fetchLimit : Nat} {bound : Option Nat}
    {session : Session} (arises : Arises fetchLimit bound session) :
    session.Sound :=
  arises.invariant (Sound.new fetchLimit bound)
    fun _ operation sound => sound.perform operation

theorem Delivered.bound_eq {session after : Session} {reply : Reply}
    {outcome : Except SessionError Movement}
    (delivered : session.Delivered reply outcome after) :
    after.bound = session.bound := by
  cases delivered with
  | dropped | discarded | merged => rfl
  | refetched awaits open_ result tagged paged gap =>
      exact (requested (session.freed _ _) _).bound_eq

theorem Pushed.bound_eq {session after : Session} {message : Message}
    {outcome : Except SessionError Movement}
    (pushed : session.Pushed message outcome after) :
    after.bound = session.bound := by
  cases pushed <;> rfl

theorem Pushed.slots_eq {session after : Session} {message : Message}
    {outcome : Except SessionError Movement}
    (pushed : session.Pushed message outcome after) :
    after.slots = session.slots := by
  cases pushed <;> rfl

theorem bound_perform (session : Session) (operation : Operation) :
    (session.perform operation).bound = session.bound := by
  cases operation with
  | openFile file => exact (session.requested_openFile file).bound_eq
  | requestMore edge => exact (session.requested edge).bound_eq
  | deliver reply => exact (session.delivered reply).bound_eq
  | push message => exact (session.pushed message).bound_eq
  | close | subscribe | unsubscribe | take => rfl

theorem Arises.bound_eq {fetchLimit : Nat} {bound : Option Nat}
    {session : Session} (arises : Arises fetchLimit bound session) :
    session.bound = bound := by
  obtain ⟨operations, rfl⟩ := arises
  have kept : ∀ (earlier : Session) operation, earlier.bound = bound →
      (earlier.perform operation).bound = bound := by
    intro earlier operation same
    exact (earlier.bound_perform operation).trans same
  exact kept_run kept rfl operations

/-- The movement accounts for the records that a session held and holds, with
some of the received ones among them, and for the versions of both edges. -/
structure Tells (session : Session) (fetched : Bool) (received : List Record)
    (movement : Movement) (after : Session) : Prop where
  records : ∃ front back,
    movement.Accounts front session.records back after.records ∧
      front ++ back <:+: received
  versions : ∀ edge, after.view.versions.get edge =
    session.view.versions.get edge +
      movement.bumps (fetched && movement.fills session.records) edge

theorem Moves.tells {session after : Session} {fetched : Bool}
    {received : List Record} {movement : Movement}
    (moves : session.Moves fetched received (.ok movement) after)
    (sound : session.Sound) :
    session.Tells fetched received movement after := by
  have afterSound := moves.sound sound
  cases moves with
  | still opened retired nothing =>
      cases nothing movement rfl
      constructor
      · refine ⟨[], [], ?_, List.nil_infix⟩
        rw [records_eq opened]
        exact Movement.Accounts.unmoved _
      · intro edge
        rw [view_eq opened retired]
        cases edge <;> simp [Movement.bumps, Movement.fills, PerEdge.get,
          PerEdge.both]
  | merged opened settled changes =>
      constructor
      · rw [sound.records_of_opened opened, afterSound.records_of_opened settled]
        exact changes.records
      · rw [sound.records_of_opened opened, view_of_opened opened,
          view_of_opened settled]
        exact changes.versions

/-- Where records were evicted, as many are held as the bound allows. -/
theorem Moves.bound_eq {session after : Session} {fetched : Bool}
    {received : List Record} {movement : Movement}
    (moves : session.Moves fetched received (.ok movement) after)
    (sound : session.Sound) {edge : Edge}
    (evicted : movement.evicted.get edge ≠ 0) :
    session.bound = some after.records.length := by
  have afterSound := moves.sound sound
  cases moves with
  | still opened retired nothing =>
      cases nothing movement rfl
      cases edge <;> exact (evicted rfl).elim
  | merged opened settled changes =>
      rw [afterSound.records_of_opened settled]
      exact changes.evicts edge evicted

/-- The movements of the replies that are merged when they are taken in
turn. -/
def movements (session : Session) : List Reply → List Movement
  | [] => []
  | reply :: rest =>
      match session.deliver reply with
      | (.ok movement, later) => movement :: later.movements rest
      | (.error _, later) => later.movements rest

theorem fst_foldl_collect (total : Movement) (session : Session)
    (replies : List Reply) :
    (replies.foldl collect (total, session)).1 =
      (session.movements replies).foldl Movement.combine total := by
  induction replies generalizing total session with
  | nil => rfl
  | cons reply rest ih =>
      rw [List.foldl_cons, movements, collect]
      rcases session.deliver reply with ⟨error | movement, later⟩
      · exact ih total later
      · exact ih (total.combine movement) later

theorem Sound.length_deliverAll {session : Session} (sound : session.Sound)
    (replies : List Reply) (total : Movement) :
    (replies.foldl collect (total, session)).2.records.length +
        ((session.movements replies).map (·.evicted.older)).sum +
        ((session.movements replies).map (·.evicted.newer)).sum =
      session.records.length +
        ((session.movements replies).map (·.added.older)).sum +
        ((session.movements replies).map (·.added.newer)).sum := by
  induction replies generalizing session total with
  | nil => rfl
  | cons reply rest ih =>
      have moves := (session.delivered reply).moves sound
      have after := moves.sound sound
      rw [List.foldl_cons, movements, collect]
      rcases step : session.deliver reply with ⟨error | movement, later⟩
      · rw [step] at moves after
        cases moves with
        | still opened retired nothing =>
            have later := ih after total
            rw [records_eq opened] at later
            exact later
      · rw [step] at moves after
        obtain ⟨front, back, accounts, _⟩ := (moves.tells sound).records
        have here := accounts.length_eq
        have onward := ih after (total.combine movement)
        simp only [List.map_cons, List.sum_cons] at here onward ⊢
        omega

/-- A reply or a push that is taken reports a movement that accounts for the
records and versions before and after.  Replies taken in turn report the sum of
these movements, which accounts for how many more or fewer records are held. -/
theorem Arises.movement_accounts {fetchLimit : Nat} {bound : Option Nat}
    {session : Session} (arises : Arises fetchLimit bound session) :
    (∀ reply movement, (session.deliver reply).1 = .ok movement →
      session.Tells true reply.records movement (session.deliver reply).2) ∧
    (∀ message movement, (session.push message).1 = .ok movement →
      session.Tells false message.records movement (session.push message).2) ∧
    ∀ replies,
      (∀ edge,
        (session.deliverAll replies).1.added.get edge =
          ((session.movements replies).map (·.added.get edge)).sum ∧
        (session.deliverAll replies).1.evicted.get edge =
          ((session.movements replies).map (·.evicted.get edge)).sum) ∧
      (session.deliverAll replies).2.records.length +
          (session.deliverAll replies).1.evicted.older +
          (session.deliverAll replies).1.evicted.newer =
        session.records.length +
          (session.deliverAll replies).1.added.older +
          (session.deliverAll replies).1.added.newer := by
  have sound := arises.sound
  refine ⟨?_, ?_, ?_⟩
  · intro reply movement taken
    have moves := (session.delivered reply).moves sound
    rw [taken] at moves
    exact moves.tells sound
  · intro message movement taken
    have moves := (session.pushed message).moves sound
    rw [taken] at moves
    exact moves.tells sound
  · intro replies
    have sums : ∀ edge,
        (session.deliverAll replies).1.added.get edge =
          ((session.movements replies).map (·.added.get edge)).sum ∧
        (session.deliverAll replies).1.evicted.get edge =
          ((session.movements replies).map (·.evicted.get edge)).sum := by
      intro edge
      rw [deliverAll_eq, fst_foldl_collect, Movement.added_foldl_combine,
        Movement.evicted_foldl_combine]
      cases edge <;> exact ⟨Nat.zero_add _, Nat.zero_add _⟩
    refine ⟨sums, ?_⟩
    have lengths := sound.length_deliverAll replies {}
    have older := sums .older
    have newer := sums .newer
    simp only [PerEdge.get] at older newer
    rw [deliverAll_eq] at older newer ⊢
    omega

/-- A file is opened and its last two records are read. -/
def openedAtEnd : List Operation :=
  [.openFile { name := "app.log" },
    .deliver {
      request := firstRequest
      result := .ok {
        source := some { name := "app.log" }
        records := [{ position := 4 }, { position := 5 }] } }]

/-- Two records are pushed to a window of two that may hold three. -/
theorem Arises.movement_of_push_beyond_bound :
    ((new 2 (some 3)).run openedAtEnd).Tells false
      [{ position := 6 }, { position := 7 }]
      { added := ⟨0, 2⟩, evicted := ⟨1, 0⟩ }
      (((new 2 (some 3)).run openedAtEnd).push
        { records := [{ position := 6 }, { position := 7 }] }).2 := by
  have arises : Arises 2 (some 3) ((new 2 (some 3)).run openedAtEnd) :=
    ⟨openedAtEnd, rfl⟩
  exact arises.movement_accounts.2.1
    { records := [{ position := 6 }, { position := 7 }] } _ rfl

end Session
end LogPager
