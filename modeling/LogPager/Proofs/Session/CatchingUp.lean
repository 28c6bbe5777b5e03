import LogPager.Session.LiveTail

/-!
# The courses of catching up

Catching up ends before a read when the live end is not held or no read is
left, and after one when the read fails, the push is refused, or the batch was
short or changed nothing.  Otherwise it goes on with the next read.
-/

namespace LogPager.Session

/-- What catching up comes to from a source, a session and a total. -/
inductive CatchesUp
    (readAfter : σ → Option Nat → Except ReadError Message × σ)
    (batch : Nat) :
    Nat → σ → Session → Movement →
      Option (Except SessionError Movement) → σ → Session → Prop where
  | away {reads : Nat} {source : σ} {session : Session} {total : Movement}
      (notLive : session.view.reached.newer = false) :
      CatchesUp readAfter batch reads source session total
        (some (.ok total)) source session
  | exhausted {source : σ} {session : Session} {total : Movement}
      (live : session.view.reached.newer = true) :
      CatchesUp readAfter batch 0 source session total none source session
  | unread {reads : Nat} {source next : σ} {session : Session}
      {total : Movement} {error : ReadError}
      (live : session.view.reached.newer = true)
      (read : readAfter source (session.edge? .newer) = (.error error, next)) :
      CatchesUp readAfter batch (reads + 1) source session total
        (some (.error (.read error))) next session
  | refused {reads : Nat} {source next : σ} {session later : Session}
      {total : Movement} {message : Message} {error : SessionError}
      (live : session.view.reached.newer = true)
      (read : readAfter source (session.edge? .newer) = (.ok message, next))
      (pushed : session.push message = (.error error, later)) :
      CatchesUp readAfter batch (reads + 1) source session total
        (some (.error error)) next later
  | finished {reads : Nat} {source next : σ} {session later : Session}
      {total movement : Movement} {message : Message}
      (live : session.view.reached.newer = true)
      (read : readAfter source (session.edge? .newer) = (.ok message, next))
      (pushed : session.push message = (.ok movement, later))
      (last : message.records.length < batch ∨ movement.isNoop = true) :
      CatchesUp readAfter batch (reads + 1) source session total
        (some (.ok (total.combine movement))) next later
  | onward {reads : Nat} {source next final : σ}
      {session later ended : Session} {total movement : Movement}
      {message : Message} {outcome : Option (Except SessionError Movement)}
      (live : session.view.reached.newer = true)
      (read : readAfter source (session.edge? .newer) = (.ok message, next))
      (pushed : session.push message = (.ok movement, later))
      (full : batch ≤ message.records.length)
      (moved : movement.isNoop = false)
      (rest : CatchesUp readAfter batch reads next later
        (total.combine movement) outcome final ended) :
      CatchesUp readAfter batch (reads + 1) source session total
        outcome final ended

theorem catchesUp (readAfter : σ → Option Nat → Except ReadError Message × σ)
    (batch reads : Nat) (source : σ) (session : Session) (total : Movement) :
    CatchesUp readAfter batch reads source session total
      (session.catchUp readAfter batch reads source total).1
      (session.catchUp readAfter batch reads source total).2.1
      (session.catchUp readAfter batch reads source total).2.2 := by
  induction reads generalizing source session total with
  | zero =>
      cases live : session.view.reached.newer with
      | false =>
          simp only [catchUp, live, Bool.not_false, if_true]
          exact .away live
      | true =>
          simp only [catchUp, live, Bool.not_true, Bool.false_eq_true, if_false]
          exact .exhausted live
  | succ reads ih =>
      cases live : session.view.reached.newer with
      | false =>
          simp only [catchUp, live, Bool.not_false, if_true]
          exact .away live
      | true =>
          simp only [catchUp, live, Bool.not_true, Bool.false_eq_true, if_false]
          rcases read : readAfter source (session.edge? .newer) with
            ⟨error | message, next⟩
          · exact .unread live read
          · rcases pushed : session.push message with ⟨error | movement, later⟩
            · simp only [pushed]
              exact .refused live read pushed
            · by_cases last : message.records.length < batch ∨
                  movement.isNoop = true
              · simp only [pushed, decide_eq_true_eq, Bool.or_eq_true, last,
                  if_true]
                exact .finished live read pushed last
              · simp only [pushed, decide_eq_true_eq, Bool.or_eq_true, last,
                  if_false]
                obtain ⟨full, moved⟩ := not_or.mp last
                exact .onward live read pushed (Nat.le_of_not_lt full)
                  (by simpa using moved) (ih next later _)

/-- Two sources that answer alike, and go on doing so, are caught up with
alike. -/
theorem catchUp_related {related : σ → τ → Prop}
    {readLeft : σ → Option Nat → Except ReadError Message × σ}
    {readRight : τ → Option Nat → Except ReadError Message × τ}
    (alike : ∀ left right position, related left right →
      (readLeft left position).1 = (readRight right position).1 ∧
        related (readLeft left position).2 (readRight right position).2)
    (batch reads : Nat) {left : σ} {right : τ} (start : related left right)
    (session : Session) (total : Movement) :
    (session.catchUp readLeft batch reads left total).1 =
        (session.catchUp readRight batch reads right total).1 ∧
      related (session.catchUp readLeft batch reads left total).2.1
        (session.catchUp readRight batch reads right total).2.1 ∧
      (session.catchUp readLeft batch reads left total).2.2 =
        (session.catchUp readRight batch reads right total).2.2 := by
  induction reads generalizing left right session total with
  | zero =>
      simp only [catchUp]
      split
      · exact ⟨rfl, start, rfl⟩
      · exact ⟨rfl, start, rfl⟩
  | succ reads ih =>
      simp only [catchUp]
      split
      · exact ⟨rfl, start, rfl⟩
      · have next := alike left right (session.edge? .newer) start
        generalize readLeft left (session.edge? .newer) = readingLeft at next ⊢
        generalize readRight right (session.edge? .newer) = readingRight at next ⊢
        obtain ⟨result, left⟩ := readingLeft
        obtain ⟨other, right⟩ := readingRight
        obtain ⟨same, stillRelated⟩ := next
        cases same
        cases result with
        | error error => exact ⟨rfl, stillRelated, rfl⟩
        | ok message =>
            rcases pushed : session.push message with ⟨error | movement, later⟩
            · simp only [pushed]
              exact ⟨trivial, stillRelated, trivial⟩
            · simp only [pushed]
              by_cases last : (decide (message.records.length < batch) ||
                  movement.isNoop) = true
              · simp only [last, if_true]
                exact ⟨trivial, stillRelated, trivial⟩
              · simp only [last]
                exact ih stillRelated later _

end LogPager.Session
