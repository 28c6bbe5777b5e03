import LogPager.Proofs.Session.Movements
import LogPager.Proofs.Window.Seams

/-!
# Where a window may have gaps

Records are joined to a window only without a gap, but within a message their
positions need only grow.  So the neighbours among the held records are next to
each other or came side by side in one message, and a window has no gap as long
as no message has one.
-/

namespace LogPager

/-- The records that an operation brings. -/
def Operation.records : Operation → List Record
  | .deliver reply => reply.records
  | .push message => message.records
  | _ => []

namespace Session

/-- The neighbours among the held records are linked. -/
def Links (session : Session) (Linked : Record → Record → Prop) : Prop :=
  ∀ log, session.opened = some log → log.window.records.IsChain Linked

variable {Linked : Record → Record → Prop}

theorem Links.of_opened {session after : Session} (links : session.Links Linked)
    (same : after.opened = session.opened) : after.Links Linked := by
  intro log opened
  exact links log (same ▸ opened)

theorem Links.settleWindow {session : Session} {log : OpenLog}
    (sound : log.window.Sound) (linked : log.window.records.IsChain Linked)
    (grown : Edge) (movement : Movement) :
    (session.settleWindow log grown movement).2.Links Linked := by
  intro other opened
  rw [opened_settleWindow] at opened
  cases opened
  exact sound.enforceBound_isChain linked _ _ _ _

theorem Delivered.links {session after : Session} {reply : Reply}
    {outcome : Except SessionError Movement}
    (delivered : session.Delivered reply outcome after)
    (adjoining : ∀ left right, left.Adjoins right → Linked left right)
    (sound : session.Sound) (links : session.Links Linked)
    (received : reply.records.IsChain Linked) : after.Links Linked := by
  cases delivered with
  | dropped | discarded => exact links
  | refetched awaits open_ result tagged paged gap =>
      exact links.of_opened (requested (session.freed _ _) _).opened_eq
  | @merged log message source page movement window awaits open_ result tagged
      same paged merged =>
      have held := sound log awaits.opened
      have brought : page.records.IsChain Linked := by
        rw [Page.records_of_ofRecords paged]
        rw [Reply.records, result] at received
        exact received
      apply Links.settleWindow (held.mergeFetched merged).sound
      exact held.mergeFetched_isChain adjoining (links log awaits.opened)
        brought merged

theorem Pushed.links {session after : Session} {message : Message}
    {outcome : Except SessionError Movement}
    (pushed : session.Pushed message outcome after)
    (adjoining : ∀ left right, left.Adjoins right → Linked left right)
    (sound : session.Sound) (links : session.Links Linked)
    (received : message.records.IsChain Linked) : after.Links Linked := by
  cases pushed with
  | closed | foreign | ignored | unordered | unmerged => exact links
  | @merged log page movement window opened same live paged merged =>
      have held := sound log opened
      have brought : page.records.IsChain Linked := by
        rw [Page.records_of_ofRecords paged]
        exact received
      apply Links.settleWindow (held.mergeLive live merged).sound
      exact held.mergeLive_isChain live adjoining (links log opened) brought
        merged

theorem Links.perform {session : Session} (links : session.Links Linked)
    (adjoining : ∀ left right, left.Adjoins right → Linked left right)
    (sound : session.Sound) {operation : Operation}
    (received : operation.records.IsChain Linked) :
    (session.perform operation).Links Linked := by
  cases operation with
  | openFile file =>
      have fresh : (session.reopened file).Links Linked := by
        intro log opened
        cases opened
        exact List.IsChain.nil
      exact fresh.of_opened (session.requested_openFile file).opened_eq
  | close => exact nofun
  | requestMore edge => exact links.of_opened (session.requested edge).opened_eq
  | deliver reply =>
      exact (session.delivered reply).links adjoining sound links received
  | push message =>
      exact (session.pushed message).links adjoining sound links received
  | subscribe | unsubscribe | take => exact links

theorem Links.run {session : Session} (links : session.Links Linked)
    (adjoining : ∀ left right, left.Adjoins right → Linked left right)
    (sound : session.Sound) {operations : List Operation}
    (received : ∀ operation ∈ operations, operation.records.IsChain Linked) :
    (session.run operations).Links Linked := by
  induction operations generalizing session with
  | nil => exact links
  | cons operation rest ih =>
      have first := links.perform adjoining sound
        (received operation List.mem_cons_self)
      apply ih first (sound.perform operation)
      intro later member
      exact received later (List.mem_cons_of_mem _ member)

theorem Links.records {session : Session} (links : session.Links Linked)
    (sound : session.Sound) : session.records.IsChain Linked := by
  cases opened : session.opened with
  | none =>
      rw [records_of_closed opened]
      exact List.IsChain.nil
  | some log =>
      rw [sound.records_of_opened opened]
      exact links log opened

theorem isChain_side_by_side (records : List Record) :
    records.IsChain fun left right => [left, right] <:+: records := by
  rw [List.isChain_iff_forall_rel_of_append_cons_cons]
  rintro left right before after rfl
  exact ⟨before, after, by simp⟩

/-- Whatever was delivered and pushed, the neighbours among the held records are
next to each other or came side by side in one reply or push.  If no reply and
no push had a gap among its records, the window has none. -/
theorem neighbours_after_run (fetchLimit : Nat) (bound : Option Nat)
    (operations : List Operation) :
    (((new fetchLimit bound).run operations).records.IsChain
      fun left right => right.position = left.position + 1 ∨
        ∃ operation ∈ operations, [left, right] <:+: operation.records) ∧
    ((∀ operation ∈ operations, operation.records.IsChain
        fun left right => right.position = left.position + 1) →
      ((new fetchLimit bound).run operations).records.IsChain
        fun left right => right.position = left.position + 1) := by
  have start := Sound.new fetchLimit bound
  have blank : ∀ Linked, (new fetchLimit bound).Links Linked := by
    intro Linked log opened
    cases opened
  have sound : ((new fetchLimit bound).run operations).Sound :=
    kept_run (fun _ operation sound => sound.perform operation) start operations
  -- In turn, records are linked that came side by side, and only those that
  -- are next to each other.
  constructor
  · refine ((blank _).run ?_ start ?_).records sound
    · intro left right next
      exact .inl next
    · intro operation member
      refine (isChain_side_by_side operation.records).imp ?_
      intro left right beside
      exact .inr ⟨operation, member, beside⟩
  · intro gapless
    refine ((blank _).run ?_ start gapless).records sound
    intro left right next
    exact next

/-- The first read of a file and a push after it, both without gaps. -/
theorem neighbours_after_paging_back :
    ((new 2 none).run (openedAtEnd ++ [
        .push { records := [{ position := 5 }, { position := 6 }] }]
      )).records.IsChain
        fun left right => right.position = left.position + 1 := by
  apply (neighbours_after_run 2 none _).2
  decide

/-- A reply with a gap among its records fills the window with it. -/
theorem gap_within_reply :
    ¬∀ fetchLimit bound session, Reachable fetchLimit bound session →
      session.records.IsChain
        fun left right => right.position = left.position + 1 := by
  intro gapless
  have reachable : Reachable 2 none ((new 2 none).run
      [.openFile { name := "app.log" },
        .deliver {
          request := firstRequest
          result := .ok {
            source := some { name := "app.log" }
            records := [{ position := 1 }, { position := 3 }] } }]) :=
    ⟨_, by decide, rfl⟩
  have none := gapless 2 none _ reachable
  revert none
  decide

end Session
end LogPager
