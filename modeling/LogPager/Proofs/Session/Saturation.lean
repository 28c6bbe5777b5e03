import LogPager.Proofs.Session.Commuting
import LogPager.Proofs.Session.Versions

/-!
# What is evicted stays evicted

Records are evicted at the older edge only once the window is full, at the live
end, and without a request in flight.  From then on, until a file is opened or
closed, every request for records is refused, so the window only moves on with
what is pushed: it stays as large as its bound, and the records that leave it
are older than all that it will ever hold again.
-/

namespace LogPager

/-- What is held no more precedes all that is held. -/
def GivesUpOldest (before after : List Record) : Prop :=
  ∀ record ∈ before, record ∈ after ∨ ∀ later ∈ after, record.Before later

/-- Nothing is held that precedes all that was held. -/
def TakesNoOlder (before after : List Record) : Prop :=
  ∀ later ∈ after, ∃ earlier ∈ before, earlier.position ≤ later.position

theorem GivesUpOldest.refl (records : List Record) :
    GivesUpOldest records records := by
  intro record member
  exact .inl member

theorem GivesUpOldest.of_drop {before all : List Record}
    (ordered : all.Pairwise Record.Before) (within : before ⊆ all)
    (gone : Nat) : GivesUpOldest before (all.drop gone) := by
  intro record member
  have parted := ordered
  rw [← List.take_append_drop gone all, List.pairwise_append] at parted
  have inside := within member
  rw [← List.take_append_drop gone all] at inside
  rcases List.mem_append.mp inside with left | kept
  · exact .inr fun later held => parted.2.2 record left later held
  · exact .inl kept

theorem TakesNoOlder.refl (records : List Record) :
    TakesNoOlder records records := by
  intro later member
  exact ⟨later, member, Nat.le_refl _⟩

theorem TakesNoOlder.trans {first second third : List Record}
    (earlier : TakesNoOlder first second) (later : TakesNoOlder second third) :
    TakesNoOlder first third := by
  intro last member
  obtain ⟨between, held, le⟩ := later last member
  obtain ⟨oldest, inFirst, leOldest⟩ := earlier between held
  exact ⟨oldest, inFirst, Nat.le_trans leOldest le⟩

theorem TakesNoOlder.of_drop {before items : List Record}
    (ordered : (before ++ items).Pairwise Record.Before)
    (nonempty : before ≠ []) (gone : Nat) :
    TakesNoOlder before ((before ++ items).drop gone) := by
  intro later member
  have begins : (before ++ items).head? = some (before.head nonempty) := by
    rw [List.head?_append, List.head?_eq_some_head nonempty, Option.some_or]
  exact ⟨before.head nonempty, List.head_mem nonempty,
    Record.head_le_position ordered begins later (List.mem_of_mem_drop member)⟩

theorem TakesNoOlder.keepsOldest {before after : List Record}
    (rising : TakesNoOlder before after)
    (ordered : before.Pairwise Record.Before) (nonempty : after ≠ []) :
    KeepsPosition ((Edge.older.item? before).map (·.position))
      ((Edge.older.item? after).map (·.position)) := by
  intro position held
  obtain ⟨oldest, begins, rfl⟩ := Option.map_eq_some_iff.mp held
  have first := List.head?_eq_some_head nonempty
  obtain ⟨earlier, member, le⟩ := rising _ (List.head_mem nonempty)
  refine ⟨(after.head nonempty).position, ?_, ?_⟩
  · rw [Edge.item?, first, Option.map_some]
  · exact Nat.le_trans
      (Record.head_le_position ordered begins earlier member) le

theorem GivesUpOldest.trans {first second third : List Record}
    (earlier : GivesUpOldest first second) (later : GivesUpOldest second third)
    (rising : TakesNoOlder second third) : GivesUpOldest first third := by
  intro record member
  rcases earlier record member with held | precedes
  · exact later record held
  · refine .inr ?_
    intro last inThird
    obtain ⟨between, held, le⟩ := rising last inThird
    exact Nat.lt_of_lt_of_le (precedes between held) le

theorem GivesUpOldest.not_mem {before middle last : List Record}
    (gives : GivesUpOldest before middle) (rising : TakesNoOlder middle last)
    {record : Record} (held : record ∈ before) (gone : record ∉ middle) :
    record ∉ last := by
  intro again
  obtain ⟨between, inMiddle, le⟩ := rising record again
  have precedes := (gives record held).resolve_left gone between inMiddle
  exact Nat.lt_irrefl _ (Nat.lt_of_lt_of_le precedes le)

namespace Session

/-- Sessions that admitted operations lead to, none of which opens or closes a
file. -/
def Onward (session later : Session) : Prop :=
  ∃ operations, session.AdmitsAll operations ∧
    (∀ operation ∈ operations, operation.KeepsFile) ∧
      session.run operations = later

theorem records_settleWindow {session : Session} {window : Window}
    (tailing : window.Tailing) (bounded : session.bound ≠ some 0)
    (file : FileRef) (grown : Edge) (movement : Movement) :
    (session.settleWindow { file, window } grown movement).2.records =
      session.kept window.records := by
  have sound :
      (session.settleWindow { file, window } grown movement).2.Sound := by
    intro log opened
    cases opened
    exact (tailing.tailing_enforceBound bounded grown _ movement).sound
  rw [sound.records_of_opened (opened_settleWindow _ _ _ _)]
  exact records_enforceBound_eq_kept tailing bounded grown movement

/-- A reply that is merged puts records before the held ones, and then some of
the oldest are given up. -/
theorem Delivered.givesUpOldest {session after : Session} {reply : Reply}
    {outcome : Except SessionError Movement}
    (delivered : session.Delivered reply outcome after)
    (anchored : session.Anchored) (made : reply.request ∈ session.sent) :
    GivesUpOldest session.records after.records := by
  cases delivered with
  | dropped unwanted late => exact .refl _
  | discarded awaits discards => exact .refl _
  | refetched awaits open_ result tagged paged gap =>
      have again := requested (session.freed reply.request.edge .idle)
        reply.request.edge
      rw [records_eq again.opened_eq]
      exact .refl _
  | @merged log _ _ _ _ _ awaits open_ result tagged same paged merged =>
      obtain ⟨takes, tailing⟩ := anchored.takesFetched made awaits merged
      have bounded : (session.freed reply.request.edge .idle).bound ≠ some 0 :=
        anchored.bounded
      obtain ⟨gone, left⟩ := exists_kept_eq_drop
        (session.freed reply.request.edge .idle) _
      rw [records_settleWindow tailing bounded, left,
        anchored.sound.records_of_opened awaits.opened]
      apply GivesUpOldest.of_drop takes.sound.ordered
      rw [takes.records]
      exact Edge.subset_put _ _ _

theorem Anchored.ordered {session : Session} (anchored : session.Anchored) :
    session.records.Pairwise Record.Before := by
  cases opened : session.opened with
  | none =>
      rw [records_of_closed opened]
      exact .nil
  | some log =>
      rw [anchored.sound.records_of_opened opened]
      exact (anchored.sound log opened).ordered

/-- A push leaves the records, or it puts some after them and then some of the
oldest are given up. -/
theorem Pushed.records {session after : Session} {message : Message}
    {outcome : Except SessionError Movement}
    (pushed : session.Pushed message outcome after)
    (anchored : session.Anchored) :
    after.records = session.records ∨
      ∃ items, (session.records ++ items).Pairwise Record.Before ∧
        after.records = session.kept (session.records ++ items) := by
  cases pushed with
  | closed | foreign | ignored | unordered | unmerged => exact .inl rfl
  | merged opened same live paged merged =>
      have tailing := anchored.tailing _ opened
      have takes := tailing.sound.mergeLive live merged
      have ordered := takes.sound.ordered
      rw [records_settleWindow (takes.tailing live tailing) anchored.bounded,
        anchored.sound.records_of_opened opened]
      rw [takes.records] at ordered ⊢
      exact .inr ⟨_, ordered, rfl⟩

theorem Anchored.givesUpOldest_perform {session : Session}
    (anchored : session.Anchored) {operation : Operation}
    (admitted : session.Admits operation) (keeps : operation.KeepsFile) :
    GivesUpOldest session.records (session.perform operation).records := by
  cases operation with
  | openFile | close => cases keeps
  | requestMore edge =>
      have same := records_eq (session.requested edge).opened_eq
      exact same ▸ .refl _
  | deliver reply =>
      exact (session.delivered reply).givesUpOldest anchored admitted
  | push message =>
      show GivesUpOldest session.records (session.push message).2.records
      rcases (session.pushed message).records anchored with
        same | ⟨items, ordered, left⟩
      · rw [same]
        exact .refl _
      · obtain ⟨gone, drops⟩ :=
          session.exists_kept_eq_drop (session.records ++ items)
        rw [left, drops]
        exact .of_drop ordered (List.subset_append_left _ _) gone
  | subscribe | unsubscribe | take => exact .refl _

/-- As many records are held as the bound allows, and none is asked for. -/
structure Saturated (session : Session) : Prop where
  anchored : session.Anchored
  full : session.bound = some session.records.length
  idle : session.slots.isInFlight .older = false

namespace Saturated

theorem nonempty {session : Session} (saturated : session.Saturated) :
    session.records ≠ [] := by
  intro empty
  have given := saturated.full
  rw [empty] at given
  exact saturated.anchored.bounded given

theorem hasPending_eq {session : Session} (saturated : session.Saturated) :
    session.hasPending = false := by
  rw [saturated.anchored.hasPending_eq, saturated.idle]

theorem requested_eq {session after : Session} {edge : Edge} {made : Bool}
    (saturated : session.Saturated)
    (requested : session.Requested edge made after) : after = session := by
  cases requested with
  | refused settled => rfl
  | @made log toward anchor opened target free =>
      have tailing := saturated.anchored.tailing log opened
      have shown := saturated.anchored.sound.records_of_opened opened
      obtain ⟨rfl, _, _⟩ := saturated.anchored.target opened target
      have nonempty := saturated.nonempty
      rw [shown] at nonempty
      have live := tailing.live nonempty
      have some := tailing.sound.isEmpty_eq_false_iff.mpr nonempty
      have full : log.window.isFull session.bound = true := by
        simp [Window.isFull, saturated.full, shown, tailing.sound.counted]
      cases edge <;> simp [target?, some, live, full] at target

theorem deliver_eq {session : Session} (saturated : session.Saturated)
    {reply : Reply} (made : reply.request ∈ session.sent) :
    (session.deliver reply).2 = session := by
  have unwanted : ∀ log, ¬session.Awaits reply.request log := by
    intro log awaits
    have flying := saturated.anchored.isInFlight_of_holds made awaits.holds
    rw [saturated.idle] at flying
    cases flying
  obtain ⟨_, _, dropped⟩ := deliver_of_not_awaits unwanted
  rw [dropped]

/-- A push to a full window evicts as many records as it puts there. -/
theorem kept_eq {session : Session} (saturated : session.Saturated)
    (items : List Record) :
    session.kept (session.records ++ items) =
      (session.records ++ items).drop items.length := by
  rw [kept, saturated.idle, if_neg Bool.false_ne_true, saturated.full,
    Window.newest, Option.elim_some, List.length_append, Nat.add_sub_cancel_left]

end Saturated

theorem Pushed.saturated {session after : Session} {message : Message}
    {outcome : Except SessionError Movement}
    (pushed : session.Pushed message outcome after)
    (saturated : session.Saturated) :
    after.Saturated ∧ TakesNoOlder session.records after.records := by
  have anchored := pushed.anchored saturated.anchored
  have slots := pushed.slots_eq
  have bound := pushed.bound_eq
  have idle : after.slots.isInFlight .older = false := by
    rw [slots, saturated.idle]
  rcases pushed.records saturated.anchored with same | ⟨items, ordered, left⟩
  · refine ⟨⟨anchored, ?_, idle⟩, ?_⟩
    · rw [bound, same, saturated.full]
    · rw [same]
      exact .refl _
  · rw [saturated.kept_eq items] at left
    refine ⟨⟨anchored, ?_, idle⟩, ?_⟩
    · rw [bound, left, saturated.full]
      simp
    · rw [left]
      exact .of_drop ordered saturated.nonempty items.length

namespace Saturated

theorem perform {session : Session} (saturated : session.Saturated)
    {operation : Operation} (admitted : session.Admits operation)
    (keeps : operation.KeepsFile) :
    (session.perform operation).Saturated ∧
      (session.perform operation).sent = session.sent ∧
      TakesNoOlder session.records (session.perform operation).records := by
  cases operation with
  | openFile | close => cases keeps
  | requestMore edge =>
      rw [Session.perform, saturated.requested_eq (session.requested edge)]
      exact ⟨saturated, rfl, .refl _⟩
  | deliver reply =>
      rw [Session.perform, saturated.deliver_eq admitted]
      exact ⟨saturated, rfl, .refl _⟩
  | push message =>
      have pushed := session.pushed message
      obtain ⟨after, rising⟩ := pushed.saturated saturated
      exact ⟨after, pushed.sent_eq, rising⟩
  | subscribe | unsubscribe | take =>
      refine ⟨⟨?_, saturated.full, saturated.idle⟩, rfl, .refl _⟩
      exact saturated.anchored.perform _ admitted

/-- Operations on the open file leave a full window full.  They make no
request, and the window moves on toward newer records. -/
theorem onward {session later : Session} (saturated : session.Saturated)
    (onward : session.Onward later) :
    later.Saturated ∧ later.sent = session.sent ∧
      TakesNoOlder session.records later.records ∧
      GivesUpOldest session.records later.records := by
  obtain ⟨operations, admitted, keep, rfl⟩ := onward
  induction operations generalizing session with
  | nil => exact ⟨saturated, rfl, .refl _, .refl _⟩
  | cons operation rest ih =>
      have keeps := keep operation List.mem_cons_self
      obtain ⟨next, sent, rising⟩ := saturated.perform admitted.1 keeps
      have gives := saturated.anchored.givesUpOldest_perform admitted.1 keeps
      obtain ⟨last, sentLast, risingLast, givesLast⟩ := ih next admitted.2
        fun later member => keep later (List.mem_cons_of_mem _ member)
      exact ⟨last, sentLast.trans sent, rising.trans risingLast,
        gives.trans givesLast risingLast⟩

end Saturated

private theorem idle_of_evicted {session : Session} (anchored : session.Anchored)
    {operation : Operation} (admitted : session.Admits operation)
    {movement : Movement}
    (reported : session.report? operation = some (.ok movement))
    (evicted : 0 < movement.evicted.older) :
    (session.perform operation).slots.isInFlight .older = false := by
  cases operation with
  | openFile | close | requestMore | subscribe | unsubscribe | take =>
      cases reported
  | deliver reply =>
      have delivered := session.delivered reply
      rw [Option.some.inj reported] at delivered
      show (session.deliver reply).2.slots.isInFlight .older = false
      generalize (session.deliver reply).2 = after at delivered ⊢
      cases delivered with
      | discarded awaits discards =>
          cases discards with
          | keepalive => exact absurd evicted (Nat.lt_irrefl 0)
      | merged awaits open_ result tagged same paged merged =>
          rw [anchored.older _ admitted]
          rfl
  | push message =>
      have pushed := session.pushed message
      rw [Option.some.inj reported] at pushed
      show (session.push message).2.slots.isInFlight .older = false
      generalize (session.push message).2 = after at pushed ⊢
      generalize ending : Except.ok movement = outcome at pushed
      cases pushed with
      | closed | foreign | unordered | unmerged => cases ending
      | ignored =>
          cases ending
          exact absurd evicted (Nat.lt_irrefl 0)
      | merged opened same live paged merged =>
          -- While a request is in flight the bound is not kept.
          cases ending
          rw [← Bool.not_eq_true]
          intro flying
          have takes := (anchored.sound _ opened).mergeLive live merged
          have unchanged :=
            (anchored.settleWindow_older opened flying live takes).1
          rw [fst_settleWindow, unchanged, takes.movement] at evicted
          exact absurd evicted (Nat.lt_irrefl 0)

/-- After an eviction at the older edge the window is full. -/
theorem Anchored.saturated_of_evicted {session : Session}
    (anchored : session.Anchored) {operation : Operation}
    (admitted : session.Admits operation)
    (evicted : 0 < (session.moved operation).evicted.older) :
    (session.perform operation).Saturated := by
  by_cases taken : ∃ movement, session.report? operation = some (.ok movement)
  · obtain ⟨movement, reported⟩ := taken
    rw [moved_of_report reported] at evicted
    obtain ⟨_, _, moves⟩ := anchored.sound.moves_of_report reported
    refine ⟨anchored.perform operation admitted, ?_,
      idle_of_evicted anchored admitted reported evicted⟩
    rw [bound_perform]
    have some : movement.evicted.get .older ≠ 0 := evicted.ne'
    exact moves.bound_eq anchored.sound some
  · rw [moved_of_unreported (not_exists.mp taken)] at evicted
    exact absurd evicted (Nat.lt_irrefl 0)

theorem Anchored.records_subset {session : Session}
    (anchored : session.Anchored) {operation : Operation}
    (admitted : session.Admits operation) (keeps : operation.KeepsFile)
    (kept : (session.moved operation).evicted.older = 0) :
    session.records ⊆ (session.perform operation).records := by
  by_cases taken : ∃ movement, session.report? operation = some (.ok movement)
  · obtain ⟨movement, reported⟩ := taken
    obtain ⟨front, back, accounts⟩ := anchored.sound.accounts reported
    have newer := anchored.evicted_newer admitted reported
    rw [moved_of_report reported] at kept
    rw [accounts.remains, kept, newer, Edge.drop_zero, Edge.drop_zero]
    intro record member
    simp [member]
  · rw [records_perform_of_unmoved keeps (not_exists.mp taken)]
    exact List.Subset.refl _

/-- Once operations on the open file have reported an eviction at the older
edge, the window is full, and what they gave up precedes what it holds. -/
theorem Anchored.saturated_run {session : Session}
    (anchored : session.Anchored) {operations : List Operation}
    (admitted : session.AdmitsAll operations)
    (keep : ∀ operation ∈ operations, operation.KeepsFile)
    (evicted : 0 < (session.movedBy operations).evicted.older) :
    (session.run operations).Saturated ∧
      GivesUpOldest session.records (session.run operations).records := by
  induction operations generalizing session with
  | nil => exact absurd evicted (Nat.lt_irrefl 0)
  | cons operation rest ih =>
      have keeps := keep operation List.mem_cons_self
      have keepRest : ∀ later ∈ rest, later.KeepsFile :=
        fun later member => keep later (List.mem_cons_of_mem _ member)
      by_cases now : 0 < (session.moved operation).evicted.older
      · have saturated := anchored.saturated_of_evicted admitted.1 now
        have gives := anchored.givesUpOldest_perform admitted.1 keeps
        obtain ⟨last, _, rising, givesLast⟩ :=
          saturated.onward ⟨rest, admitted.2, keepRest, rfl⟩
        exact ⟨last, gives.trans givesLast rising⟩
      · have kept := Nat.eq_zero_of_not_pos now
        have total := Movement.evicted_combine (session.moved operation)
          ((session.perform operation).movedBy rest) .older
        simp only [PerEdge.get, kept, Nat.zero_add] at total
        rw [movedBy, total] at evicted
        obtain ⟨last, gives⟩ := ih (anchored.perform operation admitted.1)
          admitted.2 keepRest evicted
        have within := anchored.records_subset admitted.1 keeps kept
        exact ⟨last, fun record member => gives record (within member)⟩

/-- What leads to another session and reports an eviction at the older edge: an
operation, replies taken in turn, or a live tail that catches up. -/
inductive Evicts (session : Session) : Session → Prop where
  | operation {operation : Operation} {movement : Movement}
      (admitted : session.Admits operation)
      (reported : session.report? operation = some (.ok movement))
      (evicted : 0 < movement.evicted.older) :
      Evicts session (session.perform operation)
  | replies {replies : List Reply}
      (admitted : session.AdmitsAll (replies.map .deliver))
      (evicted : 0 < (session.deliverAll replies).1.evicted.older) :
      Evicts session (session.deliverAll replies).2
  | catchUp {σ : Type}
      {readAfter : σ → Option Nat → Except ReadError Message × σ}
      {batch reads : Nat} {source : σ} {movement : Movement}
      (reported : (session.catchUp readAfter batch reads source {}).1 =
        some (.ok movement))
      (evicted : 0 < movement.evicted.older) :
      Evicts session (session.catchUp readAfter batch reads source {}).2.2

theorem admitsAll_pushes (session : Session) (messages : List Message) :
    session.AdmitsAll (messages.map .push) := by
  induction messages generalizing session with
  | nil => trivial
  | cons message rest ih => exact ⟨trivial, ih _⟩

theorem Evicts.is_run {session after : Session} (evicts : session.Evicts after) :
    ∃ operations, session.AdmitsAll operations ∧
      (∀ operation ∈ operations, operation.KeepsFile) ∧
      0 < (session.movedBy operations).evicted.older ∧
      session.run operations = after := by
  cases evicts with
  | @operation operation movement admitted reported evicted =>
      refine ⟨[operation], ⟨admitted, trivial⟩, ?_, ?_, rfl⟩
      · intro only member
        rw [List.mem_singleton.mp member]
        cases operation with
        | deliver | push => trivial
        | openFile | close | requestMore | subscribe | unsubscribe | take =>
            cases reported
      · rw [movedBy, moved_of_report reported]
        exact evicted
  | @replies replies admitted evicted =>
      rw [deliverAll_eq_run] at evicted ⊢
      refine ⟨replies.map .deliver, admitted, ?_, evicted, rfl⟩
      simp [Operation.KeepsFile]
  | @catchUp σ readAfter batch reads source movement reported evicted =>
      obtain ⟨messages, ends, reports⟩ :=
        (catchesUp readAfter batch reads source session {}).runs_pushes
      have moved := reports movement reported
      rw [Movement.empty_combine] at moved
      refine ⟨messages.map .push, admitsAll_pushes _ _, ?_, ?_, ends⟩
      · simp [Operation.KeepsFile]
      · rw [← moved]
        exact evicted

/-- After an eviction at the older edge was reported, and until a file is opened
or closed, the window holds as many records as the bound allows, no request is
made or in flight, and the oldest position never decreases.  So a record that
was held and is not held any more is never held again. -/
theorem Reachable.evicted_for_good {fetchLimit most : Nat} {session : Session}
    (reachable : Reachable fetchLimit (some most) session)
    (positive : 0 < most) {after : Session} (evicts : session.Evicts after)
    {moment : Session} (reached : after.Onward moment) :
    moment.held = most ∧ moment.hasPending = false ∧
      moment.sent = after.sent ∧
      ∀ later, moment.Onward later →
        KeepsPosition (moment.edge? .older) (later.edge? .older) ∧
        ∀ record, record ∈ session.records ∨ record ∈ moment.records →
          record ∉ later.records →
            ∀ last, later.Onward last → record ∉ last.records := by
  have bounded : some most ≠ some 0 := by
    intro zero
    cases zero
    exact Nat.lt_irrefl 0 positive
  have anchored := reachable.anchored bounded
  obtain ⟨operations, admitted, keep, evicted, rfl⟩ := evicts.is_run
  obtain ⟨full, gives⟩ := anchored.saturated_run admitted keep evicted
  obtain ⟨saturated, sent, rising, givesMoment⟩ := full.onward reached
  have given : moment.bound = some most := by
    obtain ⟨more, admittedMore, _, rfl⟩ := reached
    exact ((reachable.run admitted).run admittedMore).arises.bound_eq
  refine ⟨?_, saturated.hasPending_eq, sent, ?_⟩
  · rw [saturated.anchored.sound.held_eq]
    exact Option.some.inj (saturated.full.symm.trans given)
  · intro later onward
    obtain ⟨saturatedLater, _, risingLater, givesLater⟩ :=
      saturated.onward onward
    refine ⟨?_, ?_⟩
    · rw [saturated.anchored.sound.edge?_eq, saturatedLater.anchored.sound.edge?_eq]
      exact risingLater.keepsOldest saturated.anchored.ordered
        saturatedLater.nonempty
    · intro record held gone last further
      obtain ⟨_, _, risingLast, _⟩ := saturatedLater.onward further
      rcases held with before | between
      · have through := (gives.trans givesMoment rising).trans givesLater risingLater
        exact through.not_mem risingLast before gone
      · exact givesLater.not_mem risingLast between gone

/-- The request in flight is answered with two records, which are evicted at
once. -/
private def answered : Session :=
  ((new 2 (some 3)).run pagingBack).perform (.deliver {
    request := {
      id := 2, epoch := 1, file := { name := "app.log" }, edge := .older
      anchor := some 4, limit := 2, token := ⟨1⟩ }
    result := .ok {
      source := some { name := "app.log" }
      records := [{ position := 2 }, { position := 3 }] } })

theorem Reachable.evicted_for_good_after_reply :
    let later := answered.run
      [.requestMore .older, .push { records := [{ position := 8 }] }]
    later.held = 3 ∧ later.sent = answered.sent ∧
      ({ position := 4 } : Record) ∉ later.records := by
  intro later
  have reachable : Reachable 2 (some 3) ((new 2 (some 3)).run pagingBack) :=
    ⟨pagingBack, by decide, rfl⟩
  have evicts : ((new 2 (some 3)).run pagingBack).Evicts answered :=
    .operation (by decide) rfl (by decide)
  have still : answered.Onward answered := ⟨[], trivial, nofun, rfl⟩
  have onward : answered.Onward later :=
    ⟨_, by decide, by simp [Operation.KeepsFile], rfl⟩
  obtain ⟨held, _, sent, _⟩ :=
    reachable.evicted_for_good (by decide) evicts onward
  obtain ⟨_, _, _, goes⟩ := reachable.evicted_for_good (by decide) evicts still
  refine ⟨held, sent, ?_⟩
  exact (goes answered still).2 { position := 4 } (.inl (by decide))
    (by decide) later onward

end Session
end LogPager
