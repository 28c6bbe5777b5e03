import LogPager.Proofs.Session.LiveWindows
import LogPager.Proofs.Window.Coalescing

/-!
# How many blocks are held

Records are only ever evicted at the older edge, which leaves a small oldest
block, and from then on none are joined there: the window is full and nothing is
in flight.  So only the oldest block can be small beside its neighbour, and the
blocks are few for the records that they hold.
-/

namespace LogPager.Session

/-- No older records are asked for, and none will be: the window is full. -/
structure Sated (session : Session) (window : Window) : Prop where
  idle : session.slots.isInFlight .older = false
  some : window.records ≠ []
  full : window.isFull session.bound = true

theorem Sated.target?_ne {session : Session} {window : Window}
    (sated : session.Sated window) (sound : window.Sound) (live : window.Live)
    (edge toward : Edge) (anchor : Option Nat) :
    session.target? window edge ≠ Option.some (toward, anchor, false) := by
  intro target
  obtain ⟨_, _, ⟨empty, _⟩ | ⟨_, _, room⟩⟩ :=
    target?_of_live (sound.live_of_isEmpty live) target
  · exact sated.some (sound.isEmpty_iff.mp empty)
  · rw [sated.full] at room
    cases room

theorem Sated.grow {session : Session} {window after : Window} {edge : Edge}
    {items : List Record} (sated : session.Sated window) (sound : window.Sound)
    (grown : after.Sound)
    (records : after.records = edge.put items window.records) :
    session.Sated after := by
  refine ⟨sated.idle, ?_, ?_⟩
  · intro empty
    rw [records] at empty
    exact sated.some (List.subset_nil.mp (empty ▸ edge.subset_put items _))
  · obtain ⟨most, given, fits⟩ := Option.any_eq_true _ _ |>.mp sated.full
    refine Option.any_eq_true _ _ |>.mpr ⟨most, given, ?_⟩
    rw [decide_eq_true_eq] at fits ⊢
    rw [grown.counted, records, Edge.length_put, ← sound.counted]
    exact Nat.le_add_right_of_le fits

/-- Neighbouring blocks are coalesced, or all but the oldest are and nothing
will be joined to that one. -/
def Packs (session : Session) (window : Window) : Prop :=
  Window.Coalesced window.blocks ∨
    (session.Sated window ∧ Window.Coalesced window.blocks.tail)

theorem Packs.tail {session : Session} {window : Window}
    (packs : session.Packs window) : Window.Coalesced window.blocks.tail :=
  packs.elim List.IsChain.tail And.right

theorem Packs.of_frame {session after : Session} {window : Window}
    (packs : session.Packs window) (slots : after.slots = session.slots)
    (bound : after.bound = session.bound) : after.Packs window := by
  refine packs.imp_right ?_
  rintro ⟨sated, behind⟩
  refine ⟨⟨?_, sated.some, ?_⟩, behind⟩
  · rw [slots]
    exact sated.idle
  · rw [bound]
    exact sated.full

/-- Keeping the bound shortens the oldest blocks of a window that is full then,
and where the window is emptied no block is left. -/
theorem Packs.enforceBound {session : Session} {window : Window}
    (packs : session.Packs window) (sound : window.Sound) (live : window.Live)
    (grown : Edge) (movement : Movement) :
    session.Packs (window.enforceBound session.bound grown
      session.slots.isInFlight movement).2 := by
  rcases sound.enforceBound session.bound grown session.slots.isInFlight
      movement with
    ⟨unchanged, _⟩ | ⟨most, after, given, more, free, step, loses⟩
  · rw [unchanged]
    exact packs
  · have some : window.records ≠ [] := by
      intro empty
      simp [empty] at more
    have yields : window.yieldingEdge grown = .older := by
      simp [Window.yieldingEdge, live some]
    have behind := Window.tail_coalesced_enforceBound yields packs.tail
      session.bound session.slots.isInFlight movement
    rw [yields] at free loses
    rw [step] at behind ⊢
    by_cases empty : after.records = []
    · refine .inl ?_
      rw [loses.sound.blocks_eq_nil empty]
      exact .nil
    · refine .inr ⟨⟨free, empty, ?_⟩, behind⟩
      have left : after.length = most := by
        rw [loses.sound.counted, loses.records, Edge.length_drop]
        omega
      simp [Window.isFull, given, left]

/-- The blocks of the open window are packed. -/
def Packed (session : Session) : Prop :=
  ∀ log, session.opened = some log → session.Packs log.window

theorem Packed.settleWindow {session : Session} {log : OpenLog}
    (packs : session.Packs log.window) (sound : log.window.Sound)
    (live : log.window.Live) (grown : Edge) (movement : Movement) :
    (session.settleWindow log grown movement).2.Packed := by
  intro other opened
  cases opened
  exact (packs.enforceBound sound live grown movement).of_frame rfl rfl

/-- While a request waits for older records, all neighbouring blocks are
coalesced. -/
theorem Packed.coalesced {session : Session} (packed : session.Packed)
    (tails : session.Tails) {request : Request} {log : OpenLog}
    (made : request ∈ session.sent) (awaits : session.Awaits request log) :
    Window.Coalesced log.window.blocks := by
  refine (packed log awaits.opened).resolve_right ?_
  rintro ⟨sated, _⟩
  exact tails.not_holds sated.idle made awaits.holds

theorem Requested.packed {session after : Session} {edge : Edge} {made : Bool}
    (requested : session.Requested edge made after) (tails : session.Tails)
    (packed : session.Packed) : after.Packed := by
  cases requested with
  | refused settled => exact packed
  | @made log toward anchor opened target free =>
      intro other same
      cases opened.symm.trans same
      refine .inl ((packed log opened).resolve_right ?_)
      rintro ⟨sated, _⟩
      exact sated.target?_ne (tails.sound log opened) (tails.live log opened)
        _ _ _ target

theorem Delivered.packed {session after : Session} {reply : Reply}
    {outcome : Except SessionError Movement}
    (delivered : session.Delivered reply outcome after) (tails : session.Tails)
    (packed : session.Packed) (made : reply.request ∈ session.sent) :
    after.Packed := by
  have freed : ∀ log status, session.Awaits reply.request log →
      (session.freed reply.request.edge status).Packed := by
    intro log status awaits other opened
    cases awaits.opened.symm.trans opened
    exact .inl (packed.coalesced tails made awaits)
  cases delivered with
  | dropped unwanted late => exact packed
  | discarded awaits discards => exact freed _ _ awaits
  | refetched awaits open_ result tagged paged gap =>
      have free := tails.freed .idle
      rw [← tails.older _ made] at free
      exact (requested _ _).packed free (freed _ _ awaits)
  | merged awaits open_ result tagged same paged merged =>
      obtain ⟨sound, live⟩ := tails.mergeFetched made awaits merged
      have joins := Window.joinsAt_of_mergeFetched merged
      have coalesced := joins.coalesced (packed.coalesced tails made awaits)
      exact Packed.settleWindow (.inl coalesced) sound live _ _

theorem Pushed.packed {session after : Session} {message : Message}
    {outcome : Except SessionError Movement}
    (pushed : session.Pushed message outcome after) (tails : session.Tails)
    (packed : session.Packed) : after.Packed := by
  cases pushed with
  | closed | foreign | ignored | unordered | unmerged => exact packed
  | @merged log page movement window opened same live paged merged =>
      have sound := tails.sound log opened
      have takes := sound.mergeLive live merged
      have joins := Window.joinsAt_of_mergeLive merged
      have packs : session.Packs window := by
        rcases packed log opened with coalesced | ⟨sated, behind⟩
        · exact .inl (joins.coalesced coalesced)
        · exact .inr ⟨sated.grow sound takes.sound takes.records,
            joins.tail_coalesced behind⟩
      apply Packed.settleWindow packs takes.sound
      intro _
      rw [takes.reached, live]

theorem Packed.perform {session : Session} (packed : session.Packed)
    (tails : session.Tails) (operation : Operation)
    (admitted : session.Admits operation) :
    (session.perform operation).Packed := by
  cases operation with
  | openFile file =>
      apply (session.requested_openFile file).packed (tails.reopened file)
      intro log opened
      cases opened
      exact .inl .nil
  | close => exact nofun
  | requestMore edge => exact (session.requested edge).packed tails packed
  | deliver reply => exact (session.delivered reply).packed tails packed admitted
  | push message => exact (session.pushed message).packed tails packed
  | subscribe | unsubscribe | take =>
      intro log opened
      exact (packed log opened).of_frame rfl rfl

theorem Reachable.packed {fetchLimit : Nat} {bound : Option Nat}
    {session : Session} (reachable : Reachable fetchLimit bound session) :
    session.Packed := by
  have kept : session.Tails ∧ session.Packed := by
    apply reachable.invariant
    · exact ⟨Tails.new fetchLimit bound, nofun⟩
    · rintro earlier operation ⟨tails, packed⟩ admitted
      exact ⟨tails.perform operation admitted,
        packed.perform tails operation admitted⟩
  exact kept.2

/-- There are at most two blocks for each whole 65 of the held records, and two
more.  So from three records on there are fewer blocks than records, whatever mix
of single pushes, older pages and evictions led there. -/
theorem Reachable.length_blocks_le {fetchLimit : Nat} {bound : Option Nat}
    {session : Session} (reachable : Reachable fetchLimit bound session)
    {log : OpenLog} (opened : session.opened = some log) :
    log.window.length = log.window.records.length ∧
      log.window.blocks.length ≤ 2 * (log.window.length / 65) + 2 ∧
      (3 ≤ log.window.length →
        log.window.blocks.length < log.window.length) := by
  have counted := (reachable.tails.sound log opened).counted
  have few : log.window.blocks.length ≤ 2 * (log.window.length / 65) + 2 := by
    rw [counted]
    exact (reachable.packed log opened).tail.length_le
  refine ⟨counted, few, ?_⟩
  intro several
  omega

/-- A page of 64 records fills the window, and then one more is pushed. -/
private def pushedBeyond : Session :=
  (new 64 (some 64)).run
    [.openFile { name := "app.log" },
      .deliver {
        request := { firstRequest with limit := 64 }
        result := .ok {
          source := some { name := "app.log" }
          records := (List.range 64).map fun position => { position } } },
      .push { records := [{ position := 64 }] }]

/-- The pushed record does not join the full block, from which the oldest record
is evicted then.  The two blocks are as many as there may be. -/
theorem Reachable.length_blocks_le_after_push :
    ∃ log, pushedBeyond.opened = some log ∧
      log.window.blocks.map List.length = [63, 1] ∧
      log.window.blocks.length ≤ 2 * (log.window.length / 65) + 2 ∧
      2 * (log.window.length / 65) + 2 = 2 := by
  have reachable : Reachable 64 (some 64) pushedBeyond :=
    ⟨_, by decide, rfl⟩
  have sizes : pushedBeyond.opened.map (fun log =>
      (log.window.blocks.map List.length, log.window.length)) =
        some ([63, 1], 64) := by
    decide
  obtain ⟨log, opened, both⟩ := Option.map_eq_some_iff.mp sizes
  obtain ⟨blocks, held⟩ := Prod.mk.inj both
  have few := (reachable.length_blocks_le opened).2.1
  refine ⟨log, opened, blocks, few, ?_⟩
  rw [held]

end LogPager.Session
