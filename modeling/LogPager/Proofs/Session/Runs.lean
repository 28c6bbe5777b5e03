import LogPager.Proofs.Session.Steps

/-!
# Runs of a session

A run is any list of operations, of which only the replies are restricted:
each carries, unchanged, a request the session has made before.  They may come
in any order, late and repeatedly, and with any result.  What every admitted
operation keeps holds after every run.
-/

namespace LogPager

/-- What a viewer, a transport and a pusher do with a session. -/
inductive Operation where
  | openFile (file : FileRef)
  | close
  | requestMore (edge : Edge)
  | deliver (reply : Reply)
  | push (message : Message)
  | subscribe
  | unsubscribe (subscriber : Nat)
  | take (subscriber : Nat)

/-- An operation that neither opens nor closes a file. -/
def Operation.KeepsFile : Operation → Prop
  | .openFile _ | .close => False
  | _ => True

namespace Session

/-- The session after an operation. -/
def perform (session : Session) : Operation → Session
  | .openFile file => (session.openFile file).2
  | .close => session.close
  | .requestMore edge => (session.requestMore edge).2
  | .deliver reply => (session.deliver reply).2
  | .push message => (session.push message).2
  | .subscribe => session.subscribe.2
  | .unsubscribe subscriber => session.unsubscribe subscriber
  | .take subscriber => (session.take subscriber).2

/-- What an operation reports of the records it moved. -/
def report? (session : Session) :
    Operation → Option (Except SessionError Movement)
  | .deliver reply => some (session.deliver reply).1
  | .push message => some (session.push message).1
  | _ => none

/-- A reply is admitted when its request was made before. -/
def Admits (session : Session) : Operation → Prop
  | .deliver reply => reply.request ∈ session.sent
  | _ => True

/-- The session after some operations. -/
def run (session : Session) : List Operation → Session
  | [] => session
  | operation :: rest => (session.perform operation).run rest

/-- Every operation is admitted where it comes. -/
def AdmitsAll (session : Session) : List Operation → Prop
  | [] => True
  | operation :: rest =>
      session.Admits operation ∧ (session.perform operation).AdmitsAll rest

/-- The sessions that admitted operations lead to from a new one. -/
def Reachable (fetchLimit : Nat) (bound : Option Nat) (session : Session) :
    Prop :=
  ∃ operations, (new fetchLimit bound).AdmitsAll operations ∧
    (new fetchLimit bound).run operations = session

/-- The sessions that any operations lead to from a new one, whatever requests
the replies name. -/
def Arises (fetchLimit : Nat) (bound : Option Nat) (session : Session) : Prop :=
  ∃ operations, (new fetchLimit bound).run operations = session

instance (session : Session) :
    (operation : Operation) → Decidable (session.Admits operation)
  | .deliver reply => inferInstanceAs (Decidable (reply.request ∈ session.sent))
  | .openFile _ | .close | .requestMore _ | .push _ | .subscribe
  | .unsubscribe _ | .take _ => inferInstanceAs (Decidable True)

instance decidableAdmitsAll (session : Session) :
    (operations : List Operation) → Decidable (session.AdmitsAll operations)
  | [] => inferInstanceAs (Decidable True)
  | operation :: rest =>
      have := decidableAdmitsAll (session.perform operation) rest
      inferInstanceAs (Decidable (session.Admits operation ∧
        (session.perform operation).AdmitsAll rest))

theorem run_append (session : Session) (before after : List Operation) :
    session.run (before ++ after) = (session.run before).run after := by
  induction before generalizing session with
  | nil => rfl
  | cons operation before ih => exact ih (session.perform operation)

theorem admitsAll_append {session : Session} {before after : List Operation} :
    session.AdmitsAll (before ++ after) ↔
      session.AdmitsAll before ∧ (session.run before).AdmitsAll after := by
  induction before generalizing session with
  | nil => simp [AdmitsAll, run]
  | cons operation before ih =>
      simp only [List.cons_append, AdmitsAll, run, ih, and_assoc]

/-- What every admitted operation keeps is kept by every run. -/
theorem invariant_run {holds : Session → Prop}
    (kept : ∀ session operation, holds session → session.Admits operation →
      holds (session.perform operation))
    {session : Session} (start : holds session) {operations : List Operation}
    (admitted : session.AdmitsAll operations) :
    holds (session.run operations) := by
  induction operations generalizing session with
  | nil => exact start
  | cons operation rest ih =>
      exact ih (kept session operation start admitted.1) admitted.2

theorem Reachable.invariant {fetchLimit : Nat} {bound : Option Nat}
    {session : Session} (reachable : Reachable fetchLimit bound session)
    {holds : Session → Prop} (start : holds (new fetchLimit bound))
    (kept : ∀ session operation, holds session → session.Admits operation →
      holds (session.perform operation)) :
    holds session := by
  obtain ⟨operations, admitted, rfl⟩ := reachable
  exact invariant_run kept start admitted

theorem Reachable.run {fetchLimit : Nat} {bound : Option Nat}
    {session : Session} (reachable : Reachable fetchLimit bound session)
    {operations : List Operation} (admitted : session.AdmitsAll operations) :
    Reachable fetchLimit bound (session.run operations) := by
  obtain ⟨earlier, before, rfl⟩ := reachable
  exact ⟨earlier ++ operations, admitsAll_append.mpr ⟨before, admitted⟩,
    run_append _ _ _⟩

theorem Reachable.arises {fetchLimit : Nat} {bound : Option Nat}
    {session : Session} (reachable : Reachable fetchLimit bound session) :
    Arises fetchLimit bound session := by
  obtain ⟨operations, _, ends⟩ := reachable
  exact ⟨operations, ends⟩

theorem kept_run {holds : Session → Prop}
    (kept : ∀ session operation, holds session →
      holds (session.perform operation))
    {session : Session} (start : holds session)
    (operations : List Operation) : holds (session.run operations) := by
  induction operations generalizing session with
  | nil => exact start
  | cons operation rest ih => exact ih (kept session operation start)

theorem Arises.invariant {fetchLimit : Nat} {bound : Option Nat}
    {session : Session} (arises : Arises fetchLimit bound session)
    {holds : Session → Prop} (start : holds (new fetchLimit bound))
    (kept : ∀ session operation, holds session →
      holds (session.perform operation)) :
    holds session := by
  obtain ⟨operations, rfl⟩ := arises
  exact kept_run kept start operations

/-- The first request of a new session that opens a file. -/
def firstRequest : Request :=
  { id := 1, epoch := 1, file := { name := "app.log" }, edge := .older
    anchor := none, limit := 2, token := ⟨0⟩ }

/-- What was moved in all and the session, after one more reply. -/
def collect (collected : Movement × Session) (reply : Reply) :
    Movement × Session :=
  match collected.2.deliver reply with
  | (.ok movement, session) => (collected.1.combine movement, session)
  | (.error _, session) => (collected.1, session)

theorem deliverAll_eq (session : Session) (replies : List Reply) :
    session.deliverAll replies = replies.foldl collect ({}, session) :=
  rfl

theorem collect_session (total : Movement) (session : Session) (reply : Reply) :
    (collect (total, session) reply).2 = (session.deliver reply).2 := by
  unfold collect
  split <;> simp_all

end Session
end LogPager
