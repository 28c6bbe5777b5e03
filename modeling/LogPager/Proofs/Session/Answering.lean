import LogPager.Proofs.Session.Appending
import LogPager.Proofs.Session.Filling
import LogPager.Proofs.Session.Saturation

/-!
# What an answer leaves of the newest records

A request asks for what is older or for a gap to be closed, so an answer puts
its records before the held ones, and what it makes go is older.  As many of the
newest records as the bound leaves room for are then still the newest, however
many requests are answered, and nothing is counted for the newer edge.
-/

namespace LogPager.Session

section

variable {fetchLimit : Nat} {bound : Option Nat} {session : Session}

theorem delivers_of_answerOne
    {answer : σ → Request → Except ReadError Message × σ} {source next : σ}
    {later : Session} {outcome : Except SessionError Movement}
    (answered : session.answerOne answer source = some (outcome, next, later)) :
    ∃ reply : Reply, reply.request ∈ session.sent ∧
      session.deliver reply = (outcome, later) := by
  unfold answerOne at answered
  cases waits : session.waiting with
  | nil =>
      rw [waits] at answered
      cases answered
  | cons request others =>
      have made : request ∈ session.sent :=
        (mem_waiting.mp (waits ▸ List.mem_cons_self)).1
      rw [waits] at answered
      cases answered
      exact ⟨_, made, rfl⟩

theorem Reachable.answerOne (reachable : Reachable fetchLimit bound session)
    {answer : σ → Request → Except ReadError Message × σ} {source next : σ}
    {later : Session} {outcome : Except SessionError Movement}
    (answered : session.answerOne answer source = some (outcome, next, later)) :
    Reachable fetchLimit bound later := by
  obtain ⟨reply, made, delivered⟩ := delivers_of_answerOne answered
  have same : session.run [.deliver reply] = later :=
    congrArg Prod.snd delivered
  exact same ▸ reachable.run ⟨made, trivial⟩

theorem Reachable.fill (reachable : Reachable fetchLimit bound session)
    (answer : σ → Request → Except ReadError Message × σ)
    (wanted rounds : Nat) (source : σ) :
    Reachable fetchLimit bound
      (session.fill answer wanted rounds source).2.2 := by
  induction rounds generalizing session source with
  | zero => exact reachable
  | succ rounds ih =>
      have answered : Reachable fetchLimit bound
          (session.afterAnswer answer source).2 := by
        unfold afterAnswer
        split
        · rename_i answered
          exact reachable.answerOne answered
        · exact reachable
      rcases round : session.afterAnswer answer source with ⟨next, later⟩
      rw [round] at answered
      have admitted : later.AdmitsAll [.requestMore .older] :=
        ⟨trivial, trivial⟩
      have asking : Reachable fetchLimit bound (later.requestMore .older).2 :=
        answered.run admitted
      by_cases failed : ∃ error, later.slots.status .older = .failed error
      · obtain ⟨error, failed⟩ := failed
        rw [fill_of_failed round failed]
        exact answered
      · rcases asked : later.requestMore .older with ⟨made, ended⟩
        rw [asked] at asking
        rw [fill_of_fine round (not_exists.mp failed) asked]
        split
        · exact answered
        · split
          · exact ih asking next
          · exact asking

theorem Reachable.catchUp (reachable : Reachable fetchLimit bound session)
    (readAfter : σ → Option Nat → Except ReadError Message × σ)
    (batch reads : Nat) (source : σ) (total : Movement) :
    Reachable fetchLimit bound
      (session.catchUp readAfter batch reads source total).2.2 := by
  obtain ⟨messages, ends, _⟩ :=
    (catchesUp readAfter batch reads source session total).runs_pushes
  exact ends ▸ reachable.run (admitsAll_pushes _ _)

end

/-- Records were put before the held ones, and then the oldest beyond the bound
went. -/
structure Prepends (session after : Session) : Prop where
  records : ∃ front gone, after.records = (front ++ session.records).drop gone ∧
    (gone = 0 ∨ session.bound = some after.records.length)
  bound : after.bound = session.bound
  versions : session.view.versions.newer ≤ after.view.versions.newer

namespace Prepends

variable {session after last : Session}

theorem refl (session : Session) : session.Prepends session :=
  ⟨⟨[], 0, rfl, .inl rfl⟩, rfl, Nat.le_refl _⟩

theorem isSuffix (prepends : session.Prepends after) :
    ∃ front, after.records <:+ front ++ session.records := by
  obtain ⟨front, gone, records, _⟩ := prepends.records
  exact ⟨front, records ▸ List.drop_suffix _ _⟩

/-- As many of the newest records as the bound leaves room for stay the newest
ones. -/
theorem keeps_newest (prepends : session.Prepends after) {items : List Record}
    (ends : items <:+ session.records)
    (fits : ∀ most, session.bound = some most → items.length ≤ most) :
    items <:+ after.records := by
  obtain ⟨front, gone, records, room⟩ := prepends.records
  have among : items <:+ front ++ session.records :=
    ends.trans (List.suffix_append _ _)
  rcases room with rfl | full
  · rwa [records, List.drop_zero]
  · have here : after.records <:+ front ++ session.records :=
      records ▸ List.drop_suffix _ _
    exact List.suffix_of_suffix_length_le among here (fits _ full)

end Prepends

section

variable {session after : Session} {reply : Reply}

theorem Delivered.added_newer {movement : Movement}
    (delivered : session.Delivered reply (.ok movement) after)
    (anchored : session.Anchored) (made : reply.request ∈ session.sent) :
    movement.added.newer = 0 := by
  generalize ending : Except.ok movement = outcome at delivered
  cases delivered with
  | dropped | refetched => cases ending
  | discarded awaits discards =>
      cases discards with
      | keepalive result source =>
          cases ending
          rfl
      | failed | foreclosed | foreign | unordered => cases ending
  | @merged _ message _ _ _ _ awaits open_ result tagged same paged merged =>
      cases ending
      obtain ⟨takes, _⟩ := anchored.takesFetched made awaits merged
      have older : (fetchedBy reply.request message).edge = .older :=
        anchored.older _ made
      rw [fst_settleWindow, takes.sound.added_enforceBound, takes.movement,
        older]
      rfl

theorem Delivered.prepends {outcome : Except SessionError Movement}
    (delivered : session.Delivered reply outcome after)
    (anchored : session.Anchored) (made : reply.request ∈ session.sent) :
    session.Prepends after := by
  have moves := delivered.moves anchored.sound
  refine ⟨?_, delivered.bound_eq,
    (moves.leads anchored.sound).versions .newer⟩
  cases outcome with
  | error error =>
      exact ⟨[], 0, delivered.undisturbed.records, .inl rfl⟩
  | ok movement =>
      obtain ⟨front, back, accounts, _⟩ := (moves.tells anchored.sound).records
      have appended := accounts.appended
      rw [delivered.added_newer anchored made, List.length_eq_zero_iff]
        at appended
      have remains := accounts.remains
      rw [delivered.evicted_newer anchored made, Edge.drop_zero, appended,
        List.append_nil] at remains
      refine ⟨front, _, remains, ?_⟩
      by_cases kept : movement.evicted.older = 0
      · exact .inl kept
      · have evicted : movement.evicted.get .older ≠ 0 := kept
        exact .inr (moves.bound_eq anchored.sound evicted)

theorem Delivered.waiting_eq_nil {movement : Movement}
    (delivered : session.Delivered reply (.ok movement) after)
    (anchored : session.Anchored) (made : reply.request ∈ session.sent) :
    after.waiting = [] := by
  apply (delivered.anchored anchored made).waiting_eq_nil
  have freed := session.isInFlight_freed reply.request.edge .idle
  have older := anchored.older _ made
  generalize ending : Except.ok movement = outcome at delivered
  cases delivered with
  | dropped | refetched => cases ending
  | discarded awaits discards => exact older ▸ session.isInFlight_freed _ _
  | merged => exact older ▸ freed

/-- However many requests are answered, records are put before the held ones at
most once, as the answer that brings them leaves nothing to wait for.  Nothing
is counted for the newer edge. -/
theorem Reachable.settle {fetchLimit : Nat} {bound : Option Nat}
    (reachable : Reachable fetchLimit bound session) (bounded : bound ≠ some 0)
    (answer : σ → Request → Except ReadError Message × σ) (rounds : Nat)
    (source : σ) (total : Movement) :
    let (moved, _, later) := session.settle answer rounds source total
    Reachable fetchLimit bound later ∧ session.Prepends later ∧
      moved.added.newer = total.added.newer := by
  induction rounds generalizing session source total with
  | zero => exact ⟨reachable, .refl session, rfl⟩
  | succ rounds ih =>
      cases answered : session.answerOne answer source with
      | none =>
          simp only [Session.settle, answered]
          exact ⟨reachable, .refl session, trivial⟩
      | some round =>
          obtain ⟨outcome, next, after⟩ := round
          have anchored := reachable.anchored bounded
          obtain ⟨reply, made, taken⟩ := delivers_of_answerOne answered
          have delivered := session.delivered reply
          rw [taken] at delivered
          have reached := reachable.answerOne answered
          simp only [Session.settle, answered]
          cases outcome with
          | error error =>
              obtain ⟨ends, ⟨records, bound, versions⟩, counts⟩ :=
                ih reached next total
              have before := delivered.prepends anchored made
              have same : after.records = session.records :=
                delivered.undisturbed.records
              rw [same, before.bound] at records
              exact ⟨ends, ⟨records, bound.trans before.bound,
                Nat.le_trans before.versions versions⟩, counts⟩
          | ok movement =>
              have idle := delivered.waiting_eq_nil anchored made
              rw [settle_of_waiting_nil idle]
              refine ⟨reached, delivered.prepends anchored made, ?_⟩
              show total.added.newer + movement.added.newer = total.added.newer
              rw [delivered.added_newer anchored made, Nat.add_zero]

/-- The newest of the records held after the answers, as many as were appended
before, are those appended that are still held.  Records are given up only while
no request is in flight, and then there is nothing to answer. -/
theorem Appends.newest_settled {fetchLimit : Nat} {bound : Option Nat}
    {before : Session} {items : List Record} {gone : Nat}
    (appends : before.Appends items gone session)
    (reachable : Reachable fetchLimit bound session) (bounded : bound ≠ some 0)
    (answer : σ → Request → Except ReadError Message × σ) (rounds : Nat)
    (source : σ) (total : Movement) :
    let later := (session.settle answer rounds source total).2.2
    later.records.drop (later.records.length - items.length) =
      items.drop (items.length - later.records.length) := by
  intro later
  cases flying : session.slots.isInFlight .older with
  | true =>
      have still := appends.waits (appends.slots ▸ flying)
      have all := appends.records
      rw [still, List.drop_zero] at all
      obtain ⟨front, remains⟩ :=
        (reachable.settle bounded answer rounds source total).2.1.isSuffix
      rw [all, ← List.append_assoc] at remains
      exact newest_of_suffix remains
  | false =>
      have idle := (reachable.anchored bounded).waiting_eq_nil flying
      have same : later = session := by
        simp only [later, settle_of_waiting_nil idle]
      rw [same]
      exact newest_of_suffix appends.isSuffix

end

end LogPager.Session
