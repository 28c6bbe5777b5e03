import LogPager.Proofs.Session.Refetching
import LogPager.Proofs.Session.Shifts
import LogPager.Proofs.Window.Newest
import LogPager.Proofs.Window.Shifting
import LogPager.Proofs.Window.Snapshots
import LogPager.Session.Panel

/-!
# Panels stay at their record

A panel that notes its top index, lets replies and pushes come in, and then
moves the top by what they moved in all, shows the same record as long as it is
held.  Where the record was evicted the panel comes to rest at that edge, as no
later call brings records there: nothing was asked for at the edge that gave
way.
-/

namespace LogPager

/-- A reply or a push. -/
def Operation.Brings : Operation → Prop
  | .deliver _ | .push _ => True
  | _ => False

namespace Edge

/-- The index of the item at an edge of so many. -/
def outermost (edge : Edge) (count : Nat) : Nat :=
  match edge with
  | older => 0
  | newer => count - 1

theorem min_of_beyond {edge : Edge} {count : Nat} {index : Int}
    (beyond : edge.Beyond count index) :
    min index.toNat (count - 1) = edge.outermost count := by
  cases edge with
  | older =>
      simp only [Beyond] at beyond
      simp only [outermost]
      omega
  | newer =>
      simp only [Beyond] at beyond
      simp only [outermost]
      omega

end Edge

namespace Session

/-- The record at an index, as a snapshot shows it. -/
def recordAt? (session : Session) (index : Nat) : Option Record :=
  session.snapshot.bind (·.get? index)

theorem Sound.recordAt?_eq {session : Session} (sound : session.Sound)
    (index : Nat) : session.recordAt? index = session.records[index]? := by
  cases opened : session.opened with
  | none =>
      rw [records_of_closed opened]
      simp [recordAt?, snapshot, opened]
  | some log =>
      rw [sound.records_of_opened opened, ← (sound log opened).get?_snapshot]
      simp [recordAt?, snapshot, opened]

theorem Sound.ordered {session : Session} (sound : session.Sound) :
    session.records.Pairwise Record.Before := by
  cases opened : session.opened with
  | none =>
      rw [records_of_closed opened]
      exact .nil
  | some log =>
      rw [sound.records_of_opened opened]
      exact (sound log opened).ordered

/-- What a reply or a push comes to for the window. -/
inductive Brought (session : Session) (call : Operation) : Prop where
  /-- The window is as before, and no reply of older records is expected
  anew. -/
  | unmoved (moved : session.moved call = {})
      (opened : (session.perform call).opened = session.opened)
      (idle : session.slots.isInFlight .older = false →
        (session.perform call).slots.isInFlight .older = false)
  /-- Records came to an edge, as an answer to the request in flight there or as
  a push, and then the bound was kept. -/
  | grew {log : OpenLog} {base : Session} {file : FileRef} {grown : Window}
      {edge : Edge} {items : List Record}
      (opened : session.opened = some log) (sound : grown.Sound)
      (records : grown.records = edge.put items log.window.records)
      (moved : session.moved call =
        (base.settleWindow { file, window := grown } edge
          (Movement.add {} edge items.length)).1)
      (left : session.perform call =
        (base.settleWindow { file, window := grown } edge
          (Movement.add {} edge items.length)).2)
      (came : session.slots.isInFlight edge = true ∧
          base = session.freed edge .idle ∨
        edge = .newer ∧ base = session)

theorem isInFlight_freed_of_idle {session : Session} {edge other : Edge}
    {status : SlotStatus} (idle : session.slots.isInFlight other = false) :
    (session.freed edge status).slots.isInFlight other = false := by
  rw [← Bool.not_eq_true, Slots.isInFlight_iff] at idle ⊢
  rintro ⟨holder, slot⟩
  exact idle ⟨holder, (Slots.holder_freed slot).2⟩

theorem isInFlight_requestMore_of_idle {session : Session} {log : OpenLog}
    {edge other : Edge} (opened : session.opened = some log)
    (some : log.window.isEmpty = false)
    (open_ : log.window.reached.get edge = false)
    (free : session.slots.isInFlight edge = false) (different : other ≠ edge)
    (idle : session.slots.isInFlight other = false) :
    (session.requestMore edge).2.slots.isInFlight other = false := by
  rw [requestMore_of_open opened some open_ free]
  split
  · exact idle
  · rw [← Bool.not_eq_true, Slots.isInFlight_iff] at idle ⊢
    rintro ⟨holder, slot⟩
    rcases Slots.holder_occupied slot with ⟨same, _⟩ | ⟨_, before⟩
    · exact different same
    · exact idle ⟨holder, before⟩

theorem Sound.brought_deliver {session : Session} (sound : session.Sound)
    (reply : Reply) : session.Brought (.deliver reply) := by
  have delivered := session.delivered reply
  generalize taken : (session.deliver reply).1 = outcome at delivered
  generalize left : (session.deliver reply).2 = after at delivered
  have reported : session.report? (.deliver reply) = some outcome :=
    congrArg some taken
  have performed : session.perform (.deliver reply) = after := left
  cases delivered with
  | dropped unwanted late =>
      apply Brought.unmoved
      · rw [moved, reported]
      · rw [performed]
      · rw [performed]
        exact id
  | discarded awaits discards =>
      apply Brought.unmoved
      · rw [moved, reported]
        cases discards <;> rfl
      · rw [performed]
        rfl
      · rw [performed]
        exact isInFlight_freed_of_idle
  | refetched awaits open_ result tagged paged gap =>
      apply Brought.unmoved
      · rw [moved, reported]
      · rw [performed]
        exact (requested _ _).opened_eq
      · intro idle
        -- The reply was awaited, so it was not for the older edge.
        have different : Edge.older ≠ reply.request.edge := by
          intro same
          have flying := Slots.isInFlight_of_holds awaits.holds
          rw [← same, idle] at flying
          cases flying
        have stays : (session.freed reply.request.edge .idle).opened = _ :=
          awaits.opened
        rw [performed]
        apply isInFlight_requestMore_of_idle stays
        · exact (sound _ awaits.opened).isEmpty_of_refused gap
        · exact open_
        · exact session.isInFlight_freed _ _
        · exact different
        · exact isInFlight_freed_of_idle idle
  | merged awaits open_ result tagged same paged merged =>
      have takes := (sound _ awaits.opened).mergeFetched merged
      apply Brought.grew awaits.opened takes.sound takes.records
      · rw [moved, reported, takes.movement]
        rfl
      · rw [performed, takes.movement]
        rfl
      · exact .inl ⟨Slots.isInFlight_of_holds awaits.holds, rfl⟩

theorem Sound.brought_push {session : Session} (sound : session.Sound)
    (message : Message) : session.Brought (.push message) := by
  have pushed := session.pushed message
  generalize taken : (session.push message).1 = outcome at pushed
  generalize left : (session.push message).2 = after at pushed
  have reported : session.report? (.push message) = some outcome :=
    congrArg some taken
  have performed : session.perform (.push message) = after := left
  cases pushed with
  | closed | foreign | ignored | unordered | unmerged =>
      apply Brought.unmoved
      · rw [moved, reported]
      · rw [performed]
      · rw [performed]
        exact id
  | merged opened same live paged merged =>
      have takes := (sound _ opened).mergeLive live merged
      apply Brought.grew opened takes.sound takes.records
      · rw [moved, reported, takes.movement]
      · rw [performed, takes.movement]
      · exact .inr ⟨rfl, rfl⟩

theorem Sound.brought {session : Session} (sound : session.Sound)
    {call : Operation} (brings : call.Brings) : session.Brought call := by
  cases call with
  | deliver reply => exact sound.brought_deliver reply
  | push message => exact sound.brought_push message
  | openFile | close | requestMore | subscribe | unsubscribe | take =>
      cases brings

namespace Brought

variable {session : Session} {call : Operation}

theorem rearranges (brought : session.Brought call) (sound : session.Sound) :
    (session.moved call).Rearranges session.records
      (session.perform call).records := by
  have after := sound.perform call
  cases brought with
  | unmoved moved opened idle =>
      rw [moved, records_eq opened]
      exact .still sound.ordered
  | grew opened grownSound records moved left came =>
      rw [moved, sound.records_of_opened opened]
      rw [left] at after ⊢
      rw [after.records_of_opened (opened_settleWindow _ _ _ _)]
      exact grownSound.rearranges_enforceBound records _ _ _

end Brought

/-- No record can come beyond an edge by a reply or a push: older ones are not
asked for; or nothing is, and pushes are ignored. -/
def ExpectsNothing (session : Session) : Edge → Prop
  | .older => session.slots.isInFlight .older = false
  | .newer => session.hasPending = false ∧ session.view.reached.newer = false

namespace Brought

variable {session : Session} {call : Operation}

theorem expectsNothing_of_evicted (brought : session.Brought call) {edge : Edge}
    (evicted : (session.moved call).evicted.get edge ≠ 0) :
    (session.perform call).ExpectsNothing edge := by
  cases brought with
  | unmoved moved opened idle =>
      rw [moved] at evicted
      cases edge <;> exact (evicted rfl).elim
  | @grew log base file grown toward items opened sound records moved left came =>
      rw [moved, fst_settleWindow] at evicted
      obtain ⟨yields, free⟩ :=
        sound.yields_of_evicted (Movement.evicted_add _ _ _) evicted
      rw [left]
      cases edge with
      | older => exact free
      | newer =>
          -- The newer edge gives way to an answer at the older one, which is
          -- not in flight any more.
          have away : grown.reached.newer = false := by
            cases live : grown.reached.newer with
            | false => rfl
            | true => simp [Window.yieldingEdge, live] at yields
          have answered : toward = .older := by
            cases toward with
            | older => rfl
            | newer => simp [Window.yieldingEdge, away, Edge.opposite] at yields
          have rested : base.slots.isInFlight .older = false := by
            rcases came with ⟨_, freed⟩ | ⟨pushed, _⟩
            · rw [freed, answered]
              exact session.isInFlight_freed _ _
            · rw [pushed] at answered
              cases answered
          constructor
          · show (base.slots.isInFlight .older ||
              base.slots.isInFlight .newer) = false
            rw [rested, free]
            rfl
          · rw [view_of_opened (opened_settleWindow _ _ _ _)]
            show (Window.enforceBound _ _ _ _ _).2.reached.newer = false
            rw [sound.reached_enforceBound]
            exact away

theorem older_idle (brought : session.Brought call)
    (idle : session.slots.isInFlight .older = false) :
    (session.perform call).slots.isInFlight .older = false ∧
      (session.moved call).indexShift ≤ 0 := by
  cases brought with
  | unmoved moved opened stays =>
      rw [moved]
      exact ⟨stays idle, Int.le_refl 0⟩
  | @grew log base file grown edge items opened sound records moved left came =>
      have newer : edge = .newer ∧ base.slots.isInFlight .older = false := by
        rcases came with ⟨flying, freed⟩ | ⟨pushed, same⟩
        · rw [freed]
          refine ⟨?_, isInFlight_freed_of_idle idle⟩
          cases edge with
          | older =>
              rw [idle] at flying
              cases flying
          | newer => rfl
        · rw [same]
          exact ⟨pushed, idle⟩
      obtain ⟨rfl, rested⟩ := newer
      have added : (session.moved call).added.older = 0 := by
        rw [moved, fst_settleWindow, sound.added_enforceBound]
        rfl
      rw [left, Movement.indexShift, added]
      exact ⟨rested, by omega⟩

end Brought

theorem perform_of_expectsNothing {session : Session}
    (nothing : session.ExpectsNothing .newer) {call : Operation}
    (brings : call.Brings) :
    session.perform call = session ∧ session.moved call = {} := by
  obtain ⟨silent, away⟩ := nothing
  have idle : ∀ edge, session.slots.isInFlight edge = false := by
    rw [hasPending, Slots.anyInFlight, Bool.or_eq_false_iff] at silent
    intro edge
    cases edge with
    | older => exact silent.1
    | newer => exact silent.2
  cases call with
  | deliver reply =>
      have unwanted : ∀ log, ¬session.Awaits reply.request log := by
        intro log awaits
        have flying := Slots.isInFlight_of_holds awaits.holds
        rw [idle] at flying
        cases flying
      obtain ⟨stale, _, dropped⟩ := deliver_of_not_awaits unwanted
      simp [perform, moved, report?, dropped]
  | push message =>
      have pushed := session.pushed message
      generalize taken : (session.push message).1 = outcome at pushed
      generalize left : (session.push message).2 = after at pushed
      cases pushed with
      | closed | foreign | ignored | unordered | unmerged =>
          exact ⟨left, by rw [moved, report?, taken]⟩
      | merged opened same live paged merged =>
          rw [view_of_opened opened] at away
          exact (Bool.eq_false_iff.mp away live).elim
  | openFile | close | requestMore | subscribe | unsubscribe | take =>
      cases brings

/-- The record is held before and after each call. -/
def HeldThroughout (session : Session) (record : Record)
    (calls : List Operation) : Prop :=
  ∀ earlier, earlier <+: calls → record ∈ (session.run earlier).records

theorem HeldThroughout.tail {session : Session} {record : Record}
    {call : Operation} {rest : List Operation}
    (held : session.HeldThroughout record (call :: rest)) :
    (session.perform call).HeldThroughout record rest := by
  intro earlier leading
  exact held (call :: earlier) (List.cons_prefix_cons.mpr ⟨rfl, leading⟩)

theorem HeldThroughout.perform {session : Session} {record : Record}
    {call : Operation} {rest : List Operation}
    (held : session.HeldThroughout record (call :: rest)) :
    record ∈ (session.perform call).records :=
  held [call] (List.cons_prefix_cons.mpr ⟨rfl, List.nil_prefix⟩)

theorem movedBy_append (session : Session) (before after : List Operation) :
    session.movedBy (before ++ after) =
      (session.movedBy before).combine ((session.run before).movedBy after) := by
  induction before generalizing session with
  | nil => exact (Movement.empty_combine _).symm
  | cons call before ih =>
      rw [List.cons_append, movedBy, ih, movedBy, Movement.combine_assoc]
      rfl

/-- A record that is held throughout moves by the sum of all shifts. -/
theorem Sound.place_run {session : Session} (sound : session.Sound)
    {calls : List Operation} (brings : ∀ call ∈ calls, call.Brings)
    {record : Record} (held : session.HeldThroughout record calls)
    {index : Nat} (found : session.records[index]? = some record) :
    ∃ place : Nat, (session.run calls).records[place]? = some record ∧
      (place : Int) = index + (session.movedBy calls).indexShift := by
  induction calls generalizing session index with
  | nil => exact ⟨index, found, (Int.add_zero _).symm⟩
  | cons call rest ih =>
      have brought := sound.brought (brings call List.mem_cons_self)
      obtain ⟨next, foundNext, shifted⟩ :=
        (brought.rearranges sound).kept found held.perform
      obtain ⟨place, foundLast, onward⟩ := ih (sound.perform call)
        (fun later member => brings later (List.mem_cons_of_mem _ member))
        held.tail foundNext
      refine ⟨place, foundLast, ?_⟩
      rw [movedBy, Movement.indexShift_combine]
      omega

/-- An index beyond an edge where nothing is expected stays beyond it. -/
theorem Sound.beyond_run {session : Session} (sound : session.Sound)
    {edge : Edge} (nothing : session.ExpectsNothing edge)
    {calls : List Operation} (brings : ∀ call ∈ calls, call.Brings)
    {index : Int} (beyond : edge.Beyond session.records.length index) :
    edge.Beyond (session.run calls).records.length
      (index + (session.movedBy calls).indexShift) := by
  induction calls generalizing session index with
  | nil => simpa [movedBy, run, Movement.indexShift, PerEdge.both] using beyond
  | cons call rest ih =>
      have here := brings call List.mem_cons_self
      have later : ∀ call ∈ rest, call.Brings := fun call member =>
        brings call (List.mem_cons_of_mem _ member)
      rw [movedBy, Movement.indexShift_combine, ← Int.add_assoc, run]
      cases edge with
      | older =>
          obtain ⟨idle, falls⟩ := (sound.brought here).older_idle nothing
          apply ih (sound.perform call) idle later
          simp only [Edge.Beyond] at beyond ⊢
          omega
      | newer =>
          obtain ⟨same, still⟩ := perform_of_expectsNothing nothing here
          rw [same, still]
          apply ih sound nothing later
          simpa [Movement.indexShift, PerEdge.both] using beyond

/-- A record that one call evicted would stand beyond the edge where it went,
whatever was called before and after. -/
theorem Sound.beyond_of_evicted {session : Session} (sound : session.Sound)
    {before after : List Operation} {call : Operation}
    (brings : ∀ other ∈ before ++ call :: after, other.Brings)
    {record : Record} (held : session.HeldThroughout record before)
    (gone : record ∉ (session.run (before ++ [call])).records) {index : Nat}
    (found : session.records[index]? = some record) :
    ∃ edge, ((session.run before).moved call).EvictsFrom edge ∧
      edge.Beyond (session.run (before ++ call :: after)).records.length
        (index + (session.movedBy (before ++ call :: after)).indexShift) := by
  have here : call.Brings := brings call (by simp)
  have earlier : ∀ other ∈ before, other.Brings := fun other member =>
    brings other (List.mem_append_left _ member)
  have later : ∀ other ∈ after, other.Brings := fun other member =>
    brings other (by simp [member])
  have soundBefore := sound.after_run before
  obtain ⟨place, foundHere, shifted⟩ := sound.place_run earlier held found
  have brought := soundBefore.brought here
  have lost : record ∉ ((session.run before).perform call).records := by
    rw [run_append] at gone
    exact gone
  obtain ⟨edge, evicts, beyond⟩ :=
    (brought.rearranges soundBefore).gone foundHere lost
  refine ⟨edge, evicts, ?_⟩
  have onward := (soundBefore.perform call).beyond_run
    (brought.expectsNothing_of_evicted evicts.1) later beyond
  rw [run_append, run, movedBy_append, movedBy, Movement.indexShift_combine,
    Movement.indexShift_combine, ← Int.add_assoc, ← Int.add_assoc, ← shifted]
  exact onward

/-- After replies and pushes a panel that moves its top by what they moved in
all shows the record that it showed before, if it was held throughout.  If one
of the calls evicted it, the top is at the edge where it went. -/
theorem Arises.panel_follows_record {fetchLimit : Nat} {bound : Option Nat}
    {session : Session} (arises : Arises fetchLimit bound session)
    {panel : LogPanel} (below : panel.top < session.held)
    {calls : List Operation} (brings : ∀ call ∈ calls, call.Brings) :
    let content := Content.logs panel
    let later := session.run calls
    ∃ record top, session.recordAt? panel.top = some record ∧
      (content.update content.anchor? (session.movedBy calls)
        later).2.anchor? = some top ∧
      (session.HeldThroughout record calls →
        later.recordAt? top = some record) ∧
      ∀ before call after, calls = before ++ call :: after →
        session.HeldThroughout record before →
        record ∉ (session.run (before ++ [call])).records →
        ∃ edge, ((session.run before).moved call).EvictsFrom edge ∧
          top = edge.outermost later.held := by
  intro content later
  have sound := arises.sound
  have laterSound : later.Sound := sound.after_run calls
  rw [sound.held_eq] at below
  have found : session.records[panel.top]? = some session.records[panel.top] :=
    List.getElem?_eq_getElem below
  refine ⟨_, min ((panel.top : Int) + (session.movedBy calls).indexShift).toNat
    (later.held - 1), (sound.recordAt?_eq _).trans found, rfl, ?_, ?_⟩
  · intro held
    obtain ⟨place, foundLater, shifted⟩ := sound.place_run brings held found
    have inside : place < later.records.length :=
      (List.getElem?_eq_some_iff.mp foundLater).1
    rw [laterSound.recordAt?_eq, ← foundLater, ← shifted, laterSound.held_eq]
    congr 1
    omega
  · rintro before call after rfl held gone
    obtain ⟨edge, evicts, beyond⟩ := sound.beyond_of_evicted brings held gone found
    refine ⟨edge, evicts, ?_⟩
    rw [laterSound.held_eq]
    exact Edge.min_of_beyond beyond

/-- Two records are pushed to a window of two that may hold three, and the
second held record becomes the first. -/
theorem Arises.panel_follows_pushed_up :
    let session := (new 2 (some 3)).run openedAtEnd
    let push := Operation.push
      { records := [{ position := 6 }, { position := 7 }] }
    let panel : LogPanel := { top := 1, rows := 2, band := 0 }
    let content := Content.logs panel
    (content.update (some 1) (session.movedBy [push])
        (session.run [push])).2.anchor? = some 0 ∧
      (session.run [push]).recordAt? 0 = session.recordAt? 1 := by
  intro session push panel content
  have arises : Arises 2 (some 3) session := ⟨openedAtEnd, rfl⟩
  have brings : ∀ call ∈ [push], call.Brings := by simp [push, Operation.Brings]
  have below : panel.top < session.held := by decide
  obtain ⟨record, top, shown, placed, follows, _⟩ :=
    arises.panel_follows_record below brings
  have first : top = 0 := Option.some.inj (placed.symm.trans (by decide))
  subst first
  have second : record = { position := 5 } :=
    Option.some.inj (shown.symm.trans (by decide))
  have held : session.HeldThroughout record [push] := by
    intro earlier leading
    rw [second]
    rcases List.prefix_cons_iff.mp leading with rfl | ⟨rest, rfl, nothing⟩
    · decide
    · rw [List.prefix_nil.mp nothing]
      decide
  exact ⟨placed, (follows held).trans shown.symm⟩

end Session
end LogPager
