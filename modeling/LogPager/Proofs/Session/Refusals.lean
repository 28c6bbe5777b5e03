import LogPager.Proofs.Session.Anchors
import LogPager.Proofs.Session.Movements

/-!
# What a refusal leaves as it was

A page that is refused leaves its window alone, whether it is refused before or
after its overlap was cut off.  A session that refuses a reply has at most freed
the slot of its request and asked for the records again, which a viewer does not
see.  A session that refuses a push is as before altogether.
-/

namespace LogPager

namespace Window.Edit

/-- A failure that settles puts back the window from before the edit. -/
theorem settled_eq_of_error {window : Window}
    {result : Except SpliceError (α × Window)} {error : SpliceError}
    (failed : (settled window result).1 = .error error) :
    (settled window result).2 = window := by
  cases result with
  | error reason => rfl
  | ok grown => cases failed

end Window.Edit

namespace Session

/-- What a viewer can see of a session is as before: the held records, the
boundary flags and versions, the file with its cursor, and the views that were
published. -/
structure Undisturbed (session after : Session) : Prop where
  opened : after.opened = session.opened
  records : after.records = session.records
  view : after.view = session.view
  file : after.file = session.file
  broadcast : after.broadcast = session.broadcast

theorem Undisturbed.of_opened {session after : Session}
    (opened : after.opened = session.opened)
    (retired : after.retired = session.retired)
    (broadcast : after.broadcast = session.broadcast) :
    session.Undisturbed after := by
  constructor
  · exact opened
  · exact records_eq opened
  · exact view_eq opened retired
  · rw [Session.file, Session.file, opened]
  · exact broadcast

theorem Requested.undisturbed {session after : Session} {edge : Edge}
    {made : Bool} (requested : session.Requested edge made after) :
    session.Undisturbed after := by
  apply Undisturbed.of_opened requested.opened_eq requested.retired_eq
  cases requested <;> rfl

theorem Delivered.undisturbed {session after : Session} {reply : Reply}
    {error : SessionError}
    (delivered : session.Delivered reply (.error error) after) :
    session.Undisturbed after := by
  generalize ending : Except.error error = outcome at delivered
  cases delivered with
  | dropped | discarded => exact .of_opened rfl rfl rfl
  | refetched =>
      -- The freed slot is no part of what is seen, so only asking again counts.
      have again := requested (session.freed reply.request.edge .idle)
        reply.request.edge
      have unseen := again.undisturbed
      exact ⟨unseen.opened, unseen.records, unseen.view, unseen.file,
        unseen.broadcast⟩
  | merged => cases ending

theorem Pushed.eq_of_error {session after : Session} {message : Message}
    {error : SessionError}
    (pushed : session.Pushed message (.error error) after) :
    after = session := by
  generalize ending : Except.error error = outcome at pushed
  cases pushed with
  | closed | foreign | ignored | unordered | unmerged => rfl
  | merged => cases ending

/-- A window that refuses a page is as before.  A session that refuses a reply
has what a viewer sees as before, and one that refuses a push everything. -/
theorem unchanged_by_refusal :
    (∀ (window : Window) (page : Page),
      (∀ fetched error,
        ((Window.Edit.mergeFetched page fetched).apply window).1 =
            .error error →
          ((Window.Edit.mergeFetched page fetched).apply window).2 = window) ∧
      ∀ error,
        ((Window.Edit.mergeLive page).apply window).1 = .error error →
          ((Window.Edit.mergeLive page).apply window).2 = window) ∧
    ∀ session : Session,
      (∀ reply error, (session.deliver reply).1 = .error error →
        session.Undisturbed (session.deliver reply).2) ∧
      ∀ message error, (session.push message).1 = .error error →
        (session.push message).2 = session := by
  constructor
  · intro window page
    constructor
    · intro fetched error failed
      rw [Window.Edit.apply_mergeFetched] at failed ⊢
      exact Window.Edit.settled_eq_of_error failed
    · intro error failed
      rw [Window.Edit.apply_mergeLive] at failed ⊢
      exact Window.Edit.settled_eq_of_error failed
  · intro session
    constructor
    · intro reply error refused
      have delivered := session.delivered reply
      rw [refused] at delivered
      exact delivered.undisturbed
    · intro message error refused
      have pushed := session.pushed message
      rw [refused] at pushed
      exact pushed.eq_of_error

/-- A window with one record at the live end. -/
def holdingLast : Window :=
  (({} : Window).joinAt .newer [{ position := 7 }]).setReached .newer true

/-- The records before the held ones do not reach up to them, so the reply is
refused and they are asked for again; and a push skips a record, which the
window refuses as well. -/
theorem undisturbed_by_gaps :
    ((new 2 none).run pagingBack).Undisturbed
      (((new 2 none).run pagingBack).deliver {
        request := {
          id := 2, epoch := 1, file := { name := "app.log" }, edge := .older
          anchor := some 4, limit := 2, token := ⟨1⟩ }
        result := .ok {
          source := some { name := "app.log" }
          records := [{ position := 1 }, { position := 2 }] } }).2 ∧
    (((new 2 none).run pagingBack).push
        { records := [{ position := 9 }] }).2 =
      (new 2 none).run pagingBack ∧
    ((Window.Edit.mergeLive {
        file := "app.log"
        records := [{ position := 9 }]
        ordered := List.pairwise_singleton _ _ }).apply holdingLast).2 =
      holdingLast := by
  obtain ⟨windows, sessions⟩ := unchanged_by_refusal
  obtain ⟨replies, pushes⟩ := sessions ((new 2 none).run pagingBack)
  refine ⟨?_, ?_, ?_⟩
  · exact replies _ (.splice (.gap .older 4 2)) (by decide)
  · exact pushes _ (.splice (.gap .newer 7 9)) (by decide)
  · exact (windows holdingLast _).2 (.gap .newer 7 9) (by decide)

end Session
end LogPager
