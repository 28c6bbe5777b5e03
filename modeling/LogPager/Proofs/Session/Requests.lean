import LogPager.Proofs.Session.Runs

/-!
# Requests and the slots they hold

Every request has a number of its own, and a slot is only ever held by a
request for the file that is open, made since it was opened.  A reply whose
request does not hold its slot is therefore dropped whole, and a request that
was answered or whose file was closed never holds a slot again.
-/

namespace LogPager

theorem FileRef.sameFile_iff {left right : FileRef} :
    left.sameFile right = true ↔ left.name = right.name := by
  simp [FileRef.sameFile]

namespace Session

/-- The numbers of requests grow, and each slot is held by one of them whose
file is open in the same generation. -/
structure Tracked (session : Session) : Prop where
  counted : ∀ request ∈ session.sent, request.id ≤ session.slots.lastId
  growing : session.sent.Pairwise fun earlier later => earlier.id < later.id
  held : ∀ edge holder,
    (session.slots.slots.get edge).holder = some holder →
      ∃ log, ∃ request ∈ session.sent, session.opened = some log ∧
        request.edge = edge ∧ request.id = holder.id ∧
        request.epoch = session.slots.epoch ∧
        request.file.sameFile log.file = true

namespace Tracked

theorem new (fetchLimit : Nat) (bound : Option Nat) :
    (Session.new fetchLimit bound).Tracked := by
  constructor
  · intro request member
    cases member
  · exact List.Pairwise.nil
  · intro edge holder holds
    cases edge <;> cases holds

theorem eq_of_id_eq {session : Session} (tracked : session.Tracked)
    {left right : Request} (leftMember : left ∈ session.sent)
    (rightMember : right ∈ session.sent) (same : left.id = right.id) :
    left = right := by
  refine List.Pairwise.forall_of_forall_of_flip
    (R := fun left right => left.id = right.id → left = right)
    (fun _ _ _ => rfl) (tracked.growing.imp ?_) (tracked.growing.imp ?_)
    leftMember rightMember same
  · intro left right smaller same
    omega
  · intro left right smaller same
    omega

theorem awaits {session : Session} (tracked : session.Tracked)
    {request : Request} (made : request ∈ session.sent)
    (holds : session.slots.holds request = true) :
    ∃ log, session.Awaits request log := by
  obtain ⟨holder, slot, number⟩ := Slots.holds_iff.mp holds
  obtain ⟨log, other, member, opened, _, id, epoch, file⟩ :=
    tracked.held request.edge holder slot
  cases tracked.eq_of_id_eq made member (number.symm.trans id.symm)
  exact ⟨log, opened, file, epoch, holds⟩

private theorem of_frame {session after : Session} (tracked : session.Tracked)
    (sent : after.sent = session.sent) (slots : after.slots = session.slots)
    (opened : ∀ log, session.opened = some log →
      ∃ next, after.opened = some next ∧ next.file.name = log.file.name) :
    after.Tracked := by
  refine ⟨by rw [sent, slots]; exact tracked.counted,
    by rw [sent]; exact tracked.growing, ?_⟩
  intro edge holder holds
  rw [slots] at holds ⊢
  obtain ⟨log, request, member, wasOpen, same, id, epoch, file⟩ :=
    tracked.held edge holder holds
  obtain ⟨next, isOpen, name⟩ := opened log wasOpen
  refine ⟨next, request, sent ▸ member, isOpen, same, id, epoch, ?_⟩
  rw [FileRef.sameFile_iff] at file ⊢
  rw [file, name]

theorem freed {session : Session} (tracked : session.Tracked) (edge : Edge)
    (status : SlotStatus) : (session.freed edge status).Tracked := by
  refine ⟨tracked.counted, tracked.growing, ?_⟩
  intro other holder holds
  exact tracked.held other holder (Slots.holder_freed holds).2

theorem settleWindow {session : Session} (tracked : session.Tracked)
    {log next : OpenLog} (opened : session.opened = some log)
    (name : next.file.name = log.file.name) (grown : Edge)
    (movement : Movement) :
    (session.settleWindow next grown movement).2.Tracked := by
  refine tracked.of_frame rfl rfl ?_
  intro other isOpen
  cases opened.symm.trans isOpen
  exact ⟨_, rfl, name⟩

end Tracked

theorem Requested.tracked {session after : Session} {edge : Edge} {made : Bool}
    (requested : session.Requested edge made after)
    (tracked : session.Tracked) : after.Tracked := by
  cases requested with
  | refused settled => exact tracked
  | @made log toward anchor opened target free =>
      constructor
      · intro request member
        rcases List.mem_append.mp member with earlier | newest
        · exact Nat.le_succ_of_le (tracked.counted request earlier)
        · rw [List.mem_singleton.mp newest]
          exact Nat.le_refl _
      · refine List.pairwise_append.mpr
          ⟨tracked.growing, List.pairwise_singleton _ _, ?_⟩
        intro earlier member newest atEnd
        rw [List.mem_singleton.mp atEnd]
        exact Nat.lt_succ_of_le (tracked.counted earlier member)
      · intro other holder holds
        rcases Slots.holder_occupied holds with ⟨rfl, rfl⟩ | ⟨_, held⟩
        · exact ⟨log, _, List.mem_append_right _ (List.mem_singleton.mpr rfl),
            opened, rfl, rfl, rfl, FileRef.sameFile_iff.mpr rfl⟩
        · obtain ⟨log, request, member, rest⟩ := tracked.held other holder held
          exact ⟨log, request, List.mem_append_left _ member, rest⟩

theorem Delivered.tracked {session after : Session} {reply : Reply}
    {outcome : Except SessionError Movement}
    (delivered : session.Delivered reply outcome after)
    (tracked : session.Tracked) : after.Tracked := by
  cases delivered with
  | dropped unwanted late => exact tracked
  | discarded awaits discards => exact tracked.freed _ _
  | refetched awaits open_ result tagged paged gap =>
      exact (requested _ _).tracked (tracked.freed _ _)
  | merged awaits open_ result tagged same paged merged =>
      exact (tracked.freed _ _).settleWindow awaits.opened (by rfl) _ _

theorem Pushed.tracked {session after : Session} {message : Message}
    {outcome : Except SessionError Movement}
    (pushed : session.Pushed message outcome after)
    (tracked : session.Tracked) : after.Tracked := by
  cases pushed with
  | closed | foreign | ignored | unordered | unmerged => exact tracked
  | merged opened same live paged merged =>
      exact tracked.settleWindow opened (by rfl) _ _

namespace Tracked

private theorem cancelAll {session after : Session} (tracked : session.Tracked)
    (sent : after.sent = session.sent)
    (slots : after.slots = session.slots.cancelAll) : after.Tracked := by
  refine ⟨by rw [sent, slots]; exact tracked.counted,
    by rw [sent]; exact tracked.growing, ?_⟩
  intro edge holder holds
  rw [slots, Slots.holder_cancelAll] at holds
  cases holds

theorem reopened {session : Session} (tracked : session.Tracked)
    (file : FileRef) : (session.reopened file).Tracked :=
  tracked.cancelAll rfl rfl

theorem openFile {session : Session} (tracked : session.Tracked)
    (file : FileRef) : (session.openFile file).2.Tracked :=
  (session.requested_openFile file).tracked (tracked.reopened file)

theorem close {session : Session} (tracked : session.Tracked) :
    session.close.Tracked :=
  tracked.cancelAll rfl rfl

theorem perform {session : Session} (tracked : session.Tracked)
    (operation : Operation) : (session.perform operation).Tracked := by
  cases operation with
  | openFile file => exact tracked.openFile file
  | close => exact tracked.close
  | requestMore edge => exact (session.requested edge).tracked tracked
  | deliver reply => exact (session.delivered reply).tracked tracked
  | push message => exact (session.pushed message).tracked tracked
  | subscribe | unsubscribe | take =>
      refine tracked.of_frame rfl rfl ?_
      intro log opened
      exact ⟨log, opened, rfl⟩

end Tracked

theorem Reachable.tracked {fetchLimit : Nat} {bound : Option Nat}
    {session : Session} (reachable : Reachable fetchLimit bound session) :
    session.Tracked :=
  reachable.invariant (Tracked.new fetchLimit bound)
    fun _ operation tracked _ => tracked.perform operation

theorem Requested.sent_subset {session after : Session} {edge : Edge}
    {made : Bool} (requested : session.Requested edge made after) :
    session.sent ⊆ after.sent := by
  cases requested with
  | refused settled => exact List.Subset.refl _
  | made opened target free => exact List.subset_append_left _ _

theorem Delivered.sent_subset {session after : Session} {reply : Reply}
    {outcome : Except SessionError Movement}
    (delivered : session.Delivered reply outcome after) :
    session.sent ⊆ after.sent := by
  cases delivered with
  | dropped | discarded | merged => exact List.Subset.refl _
  | refetched awaits open_ result tagged paged gap =>
      exact (requested (session.freed _ _) _).sent_subset

theorem Pushed.sent_eq {session after : Session} {message : Message}
    {outcome : Except SessionError Movement}
    (pushed : session.Pushed message outcome after) :
    after.sent = session.sent := by
  cases pushed <;> rfl

theorem sent_subset_perform (session : Session) (operation : Operation) :
    session.sent ⊆ (session.perform operation).sent := by
  cases operation with
  | openFile file => exact (session.requested_openFile file).sent_subset
  | requestMore edge => exact (session.requested edge).sent_subset
  | deliver reply => exact (session.delivered reply).sent_subset
  | push message => exact (session.pushed message).sent_eq.symm ▸ List.Subset.refl _
  | close | subscribe | unsubscribe | take => exact List.Subset.refl _

/-- A request that was made and does not hold its slot. -/
structure Spent (session : Session) (request : Request) : Prop where
  made : request ∈ session.sent
  idle : session.slots.holds request = false

theorem spent_of_holder {session : Session} {request : Request}
    (made : request ∈ session.sent)
    (idle : ∀ holder,
      (session.slots.slots.get request.edge).holder = some holder →
        holder.id ≠ request.id) : session.Spent request := by
  refine ⟨made, ?_⟩
  rw [← Bool.not_eq_true, Slots.holds_iff]
  rintro ⟨holder, slot, same⟩
  exact idle holder slot same

theorem Spent.holder {session : Session} {request : Request}
    (spent : session.Spent request) {holder : Holder}
    (slot : (session.slots.slots.get request.edge).holder = some holder) :
    holder.id ≠ request.id := by
  intro same
  have holds := Slots.holds_iff.mpr ⟨holder, slot, same⟩
  rw [spent.idle] at holds
  cases holds

theorem Spent.deliver {session : Session} {reply : Reply}
    (spent : session.Spent reply.request) :
    ∃ stale, session.deliver reply = (.error (.stale stale), session) := by
  have unwanted : ∀ log, ¬session.Awaits reply.request log := by
    intro log awaits
    have holds := awaits.holds
    rw [spent.idle] at holds
    cases holds
  obtain ⟨stale, _, step⟩ := deliver_of_not_awaits unwanted
  exact ⟨stale, step⟩

theorem Spent.freed {session : Session} {request : Request}
    (spent : session.Spent request) (edge : Edge) (status : SlotStatus) :
    (session.freed edge status).Spent request :=
  spent_of_holder spent.made fun _ slot =>
    spent.holder (Slots.holder_freed slot).2

/-- A new request has a number that no earlier request has, so it takes the
slot of none of them. -/
theorem Requested.spent {session after : Session} {edge : Edge} {made : Bool}
    (requested : session.Requested edge made after)
    (tracked : session.Tracked) {request : Request}
    (spent : session.Spent request) : after.Spent request := by
  cases requested with
  | refused settled => exact spent
  | made opened target free =>
      apply spent_of_holder (List.mem_append_left _ spent.made)
      intro holder slot
      rcases Slots.holder_occupied slot with ⟨_, rfl⟩ | ⟨_, held⟩
      · exact (Nat.lt_succ_of_le (tracked.counted request spent.made)).ne'
      · exact spent.holder held

theorem Requested.not_holds {session after : Session} {edge : Edge}
    {made : Bool} (requested : session.Requested edge made after)
    (tracked : session.Tracked) {request : Request}
    (earlier : request ∈ session.sent)
    (idle : ¬session.slots.holds request = true) :
    ¬after.slots.holds request = true := by
  rw [Bool.not_eq_true] at idle ⊢
  exact (requested.spent tracked ⟨earlier, idle⟩).idle

theorem Delivered.spent {session after : Session} {reply : Reply}
    {outcome : Except SessionError Movement}
    (delivered : session.Delivered reply outcome after)
    (tracked : session.Tracked) {request : Request}
    (spent : session.Spent request) : after.Spent request := by
  cases delivered with
  | dropped unwanted late => exact spent
  | discarded awaits discards => exact spent.freed _ _
  | refetched awaits open_ result tagged paged gap =>
      exact (requested _ _).spent (tracked.freed _ _) (spent.freed _ _)
  | merged awaits open_ result tagged same paged merged =>
      exact ⟨spent.made, (spent.freed _ _).idle⟩

theorem Pushed.spent {session after : Session} {message : Message}
    {outcome : Except SessionError Movement}
    (pushed : session.Pushed message outcome after) {request : Request}
    (spent : session.Spent request) : after.Spent request := by
  cases pushed with
  | closed | foreign | ignored | unordered | unmerged => exact spent
  | merged opened same live paged merged => exact ⟨spent.made, spent.idle⟩

theorem spent_of_cancelAll {session after : Session} {request : Request}
    (made : request ∈ session.sent) (sent : after.sent = session.sent)
    (slots : after.slots = session.slots.cancelAll) : after.Spent request := by
  apply spent_of_holder (sent ▸ made)
  intro holder slot
  rw [slots, Slots.holder_cancelAll] at slot
  cases slot

theorem Tracked.spent_openFile {session : Session} (tracked : session.Tracked)
    {request : Request} (made : request ∈ session.sent) (file : FileRef) :
    (session.openFile file).2.Spent request :=
  (session.requested_openFile file).spent (tracked.reopened file)
    (spent_of_cancelAll made rfl rfl)

/-- A request whose reply was delivered does not hold its slot afterwards,
whatever became of the reply. -/
theorem Delivered.spent_request {session after : Session} {reply : Reply}
    {outcome : Except SessionError Movement}
    (delivered : session.Delivered reply outcome after)
    (tracked : session.Tracked) (made : reply.request ∈ session.sent) :
    after.Spent reply.request := by
  have released : ∀ status,
      (session.freed reply.request.edge status).Spent reply.request := by
    intro status
    refine spent_of_holder made ?_
    intro holder slot
    exact ((Slots.holder_freed slot).1 rfl).elim
  cases delivered with
  | dropped unwanted late =>
      refine ⟨made, ?_⟩
      rw [← Bool.not_eq_true]
      intro holds
      obtain ⟨log, awaits⟩ := tracked.awaits made holds
      exact unwanted log awaits
  | discarded awaits discards => exact released _
  | refetched awaits open_ result tagged paged gap =>
      exact (requested _ _).spent (tracked.freed _ _) (released _)
  | merged awaits open_ result tagged same paged merged =>
      exact ⟨made, (released .idle).idle⟩

theorem Spent.perform {session : Session} {request : Request}
    (spent : session.Spent request) (tracked : session.Tracked)
    (operation : Operation) : (session.perform operation).Spent request := by
  cases operation with
  | openFile file => exact tracked.spent_openFile spent.made file
  | close => exact spent_of_cancelAll spent.made rfl rfl
  | requestMore edge => exact (session.requested edge).spent tracked spent
  | deliver reply => exact (session.delivered reply).spent tracked spent
  | push message => exact (session.pushed message).spent spent
  | subscribe | unsubscribe | take => exact ⟨spent.made, spent.idle⟩

theorem Spent.run {session : Session} {request : Request}
    (spent : session.Spent request) (tracked : session.Tracked)
    (operations : List Operation) : (session.run operations).Spent request := by
  induction operations generalizing session with
  | nil => exact spent
  | cons operation rest ih =>
      exact ih (spent.perform tracked operation) (tracked.perform operation)

end Session

/-- An operation after which a request made before cannot be answered: a reply
to it was delivered, or another file was opened or the file was closed. -/
def Operation.Ends (request : Request) : Operation → Prop
  | .openFile _ | .close => True
  | .deliver reply => reply.request = request
  | _ => False

/-- Whether an operation delivers a reply to a request. -/
def Operation.answers (request : Request) : Operation → Bool
  | .deliver reply => reply.request == request
  | _ => false

namespace Session

theorem Tracked.spent_perform {session : Session} (tracked : session.Tracked)
    {request : Request} (made : request ∈ session.sent)
    {operation : Operation} (ends : operation.Ends request) :
    (session.perform operation).Spent request := by
  cases operation with
  | openFile file => exact tracked.spent_openFile made file
  | close => exact spent_of_cancelAll made rfl rfl
  | deliver reply =>
      cases ends
      exact (session.delivered reply).spent_request tracked made
  | requestMore | push | subscribe | unsubscribe | take => cases ends

/-- How often replies to a request change the session in a run. -/
def effects (session : Session) (request : Request) : List Operation → Nat
  | [] => 0
  | operation :: rest =>
      (if operation.answers request ∧ session.perform operation ≠ session then 1
        else 0) + (session.perform operation).effects request rest

theorem Spent.effects_eq_zero {session : Session} {request : Request}
    (spent : session.Spent request) (tracked : session.Tracked)
    (operations : List Operation) : session.effects request operations = 0 := by
  induction operations generalizing session with
  | nil => rfl
  | cons operation rest ih =>
      have unchanged : ¬(operation.answers request = true ∧
          session.perform operation ≠ session) := by
        rintro ⟨answers, changes⟩
        cases operation with
        | deliver reply =>
            have same : reply.request = request := eq_of_beq answers
            have spentReply : session.Spent reply.request := same ▸ spent
            obtain ⟨stale, step⟩ := spentReply.deliver
            exact changes (congrArg Prod.snd step)
        | openFile | close | requestMore | push | subscribe | unsubscribe | take =>
            cases answers
      rw [effects, if_neg unchanged, Nat.zero_add]
      exact ih (spent.perform tracked operation) (tracked.perform operation)

theorem Tracked.effects_le_one {session : Session} (tracked : session.Tracked)
    (request : Request) {operations : List Operation}
    (admitted : session.AdmitsAll operations) :
    session.effects request operations ≤ 1 := by
  induction operations generalizing session with
  | nil => exact Nat.zero_le 1
  | cons operation rest ih =>
      rw [effects]
      by_cases affects : operation.answers request = true ∧
          session.perform operation ≠ session
      · have spent : (session.perform operation).Spent request := by
          cases operation with
          | deliver reply =>
              have same : reply.request = request := eq_of_beq affects.1
              exact same ▸ (session.delivered reply).spent_request tracked
                admitted.1
          | openFile | close | requestMore | push | subscribe | unsubscribe | take =>
              cases affects.1
        rw [if_pos affects, spent.effects_eq_zero (tracked.perform operation)]
      · rw [if_neg affects, Nat.zero_add]
        exact ih (tracked.perform operation) admitted.2

/-- A reply whose request does not hold its slot is dropped as stale and leaves
the session as it is.  A request that was answered, or whose file was closed or
replaced, never holds its slot again, also not when the same file is opened
anew.  So no request changes the session more than once. -/
theorem Reachable.answered_at_most_once {fetchLimit : Nat}
    {bound : Option Nat} {session : Session}
    (reachable : Reachable fetchLimit bound session) {request : Request}
    (made : request ∈ session.sent) :
    (session.slots.holds request = false → ∀ result, ∃ stale,
      session.deliver { request, result } = (.error (.stale stale), session)) ∧
    (∀ operation, operation.Ends request → ∀ later,
      ((session.perform operation).run later).slots.holds request = false ∧
      ∀ result, ∃ stale,
        ((session.perform operation).run later).deliver { request, result } =
          (.error (.stale stale), (session.perform operation).run later)) ∧
    ∀ operations, session.AdmitsAll operations →
      session.effects request operations ≤ 1 := by
  have tracked := reachable.tracked
  refine ⟨?_, ?_, ?_⟩
  · intro idle result
    have spent : session.Spent request := ⟨made, idle⟩
    exact spent.deliver
  · intro operation ends later
    have spent := (tracked.spent_perform made ends).run
      (tracked.perform operation) later
    exact ⟨spent.idle, fun result => spent.deliver⟩
  · intro operations admitted
    exact tracked.effects_le_one request admitted

/-- A file is opened and its first request answered, then it is opened
anew. -/
private def reopening : List Operation :=
  [.openFile { name := "app.log" },
    .deliver {
      request := firstRequest
      result := .ok { source := some { name := "app.log" }
                      records := [{ position := 0 }], boundary := true } },
    .openFile { name := "app.log" }]

theorem Reachable.late_reply_after_reopening :
    (new 2 none).AdmitsAll reopening ∧
      ((new 2 none).run reopening).slots.anyInFlight = true ∧
      ∃ stale, ((new 2 none).run reopening).deliver
        { request := firstRequest, result := .error .cancelled } =
          (.error (.stale stale), (new 2 none).run reopening) := by
  have admitted : (new 2 none).AdmitsAll reopening := by decide
  have reachable : Reachable 2 none ((new 2 none).run reopening) :=
    ⟨reopening, admitted, rfl⟩
  have made : firstRequest ∈ ((new 2 none).run reopening).sent := by decide
  refine ⟨admitted, by decide, ?_⟩
  exact (reachable.answered_at_most_once made).1 (by decide) _

end Session
end LogPager
