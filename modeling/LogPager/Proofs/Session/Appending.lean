import LogPager.Proofs.Session.Panels
import LogPager.Proofs.Session.Versions
import LogPager.Proofs.Window.Overlaps

/-!
# What catching up appends

Every message that catching up pushes puts the records beyond the newest held
position behind those held, and then some of the oldest are given up if the
bound asks for it.  So whatever a source answers, the records held afterwards
are the newest of those held before and those appended, and the newest of these
are what a snapshot shows at its tail.  Where a later read or push fails, what
was appended by the batches before it stays.
-/

namespace LogPager

namespace Movement

/-- So many records were put at the newer edge and so many evicted at the older
one. -/
def forward (appended gone : Nat) : Movement :=
  { added := ⟨0, appended⟩, evicted := ⟨gone, 0⟩ }

theorem add_newer_eq (count : Nat) :
    add {} .newer count = forward count 0 := by
  simp [forward, add, PerEdge.modify, PerEdge.set, PerEdge.get, PerEdge.both]

theorem evict_forward (appended gone : Nat) :
    (forward appended 0).evict .older gone = forward appended gone := by
  simp [forward, evict, PerEdge.modify, PerEdge.set, PerEdge.get]

theorem combine_forward (first second gone later : Nat) :
    (forward first gone).combine (forward second later) =
      forward (first + second) (gone + later) :=
  rfl

theorem isNoop_forward {appended gone : Nat} :
    (forward appended gone).isNoop = true ↔ appended = 0 ∧ gone = 0 := by
  simp only [isNoop, changed, forward, PerEdge.get]
  cases appended <;> cases gone <;> simp

theorem isNoop_combine {first second : Movement} :
    (first.combine second).isNoop = true ↔
      first.isNoop = true ∧ second.isNoop = true := by
  simp only [isNoop, changed, added_combine, evicted_combine,
    Bool.and_eq_true, Bool.not_eq_true', Bool.or_eq_false_iff,
    decide_eq_false_iff_not]
  omega

theorem bumps_forward {appended : Nat} (some : 0 < appended)
    (gone : Nat) (filled : Bool) :
    0 < (forward appended gone).bumps filled .newer := by
  simp [bumps, forward, PerEdge.get, some]

end Movement

/-- At the live end the bound takes records from the older edge, but none that
it has room for, and none while a request is in flight there. -/
theorem Window.Sound.enforceBound_forward {window : Window}
    (sound : window.Sound) (live : window.reached.newer = true)
    (bound : Option Nat) (grown : Edge) (inFlight : Edge → Bool)
    (appended : Nat) :
    ∃ gone after,
      window.enforceBound bound grown inFlight (.forward appended 0) =
        (.forward appended gone, after) ∧
      after.records = window.records.drop gone ∧
      gone ≤ window.records.length ∧
      (gone = 0 ∨ ∃ most, bound = some most ∧ most ≤ after.records.length) ∧
      (inFlight .older = true → gone = 0) := by
  rcases sound.enforceBound bound grown inFlight (.forward appended 0) with
    ⟨unchanged, _⟩ | ⟨most, after, given, exceeds, free, step, loses⟩
  · exact ⟨0, window, unchanged, List.drop_zero.symm, Nat.zero_le _, .inl rfl,
      fun _ => rfl⟩
  · have yields : window.yieldingEdge grown = .older := by
      rw [Window.yieldingEdge, live, if_pos rfl]
    rw [yields] at free
    rw [yields, Movement.evict_forward] at step
    have records : after.records =
        window.records.drop (window.records.length - most) := by
      rw [loses.records, yields]
      rfl
    refine ⟨_, after, step, records, Nat.sub_le _ _, .inr ⟨most, given, ?_⟩, ?_⟩
    · rw [records, List.length_drop]
      omega
    · intro flying
      cases free.symm.trans flying

theorem newest_of_suffix {held before items : List Record}
    (remains : held <:+ before ++ items) :
    held.drop (held.length - items.length) =
      items.drop (items.length - held.length) := by
  have within := remains.length_le
  obtain ⟨gone, parts⟩ := remains
  have lengths := congrArg List.length parts
  simp only [List.length_append] at within lengths
  have from_ : held = (before ++ items).drop gone.length := by
    rw [← parts, List.drop_left]
  generalize count : held.length = kept at within lengths
  rw [from_, List.drop_drop, List.drop_append,
    List.drop_eq_nil_of_le (by omega), List.nil_append]
  congr 1
  omega

namespace Session

/-- The records of a message beyond the newest held position, all of them where
nothing is held. -/
def beyondNewest (session : Session) (message : Message) : List Record :=
  match session.edge? .newer with
  | none => message.records
  | some newest => message.records.filter (newest < ·.position)

/-- The records that some messages append when they are pushed in turn. -/
def appendedBy (session : Session) : List Message → List Record
  | [] => []
  | message :: rest =>
      session.beyondNewest message ++ (session.push message).2.appendedBy rest

/-- Records were put behind the held ones, and some of the oldest were given up,
but not below the bound. -/
structure Appends (session : Session) (items : List Record) (gone : Nat)
    (after : Session) : Prop where
  records : after.records = (session.records ++ items).drop gone
  within : gone ≤ (session.records ++ items).length
  full : gone = 0 ∨
    ∃ most, session.bound = some most ∧ most ≤ after.records.length
  bound : after.bound = session.bound
  slots : after.slots = session.slots
  /-- While older records are on their way, none is given up. -/
  waits : session.slots.isInFlight .older = true → gone = 0
  /-- Without any room, not even the newest record stays for the next ones to
  follow. -/
  ordered : session.bound ≠ some 0 →
    (session.records ++ items).Pairwise Record.Before
  /-- Records that are appended move the version of the newer edge. -/
  versions : session.view.versions.newer ≤ after.view.versions.newer ∧
    (items ≠ [] → session.view.versions.newer < after.view.versions.newer)

namespace Appends

variable {session after : Session} {items : List Record} {gone : Nat}

theorem nothing (sound : session.Sound) : session.Appends [] 0 session := by
  refine ⟨?_, Nat.zero_le _, .inl rfl, rfl, rfl, fun _ => rfl, ?_,
    Nat.le_refl _, ?_⟩
  · rw [List.append_nil, List.drop_zero]
  · rw [List.append_nil]
    exact fun _ => sound.ordered
  · exact fun some => (some rfl).elim

theorem getLast?_eq (appends : session.Appends items gone after)
    (bounded : session.bound ≠ some 0) :
    after.records.getLast? = (session.records ++ items).getLast? := by
  have lengths := congrArg List.length appends.records
  rw [List.length_drop] at lengths
  rw [appends.records, List.getLast?_drop]
  split
  · rename_i all
    have none : (session.records ++ items).length = 0 := by
      rcases appends.full with rfl | ⟨most, given, least⟩
      · exact Nat.eq_zero_of_le_zero all
      · have zero : most = 0 := by omega
        exact (bounded (zero ▸ given)).elim
    rw [List.length_eq_zero_iff.mp none, List.getLast?_nil]
  · rfl

/-- What was given up before more records come precedes the newest record, which
was not. -/
theorem ordered_append (appends : session.Appends items gone after)
    (bounded : session.bound ≠ some 0) {more : List Record}
    (next : (after.records ++ more).Pairwise Record.Before) :
    (session.records ++ (items ++ more)).Pairwise Record.Before := by
  have front := appends.ordered bounded
  have back := List.pairwise_append.mp next
  rw [← List.append_assoc, List.pairwise_append]
  refine ⟨front, back.2.1, ?_⟩
  intro record member item later
  have ends := List.getLast?_eq_some_getLast (List.ne_nil_of_mem member)
  have held := List.mem_of_getLast? ((appends.getLast?_eq bounded).trans ends)
  exact Nat.lt_of_le_of_lt
    (Record.position_le_getLast front ends record member)
    (back.2.2 _ held item later)

theorem trans {first second third : Session} {more : List Record}
    {later : Nat} (earlier : first.Appends items gone second)
    (next : second.Appends more later third) :
    first.Appends (items ++ more) (gone + later) third := by
  have within := earlier.within
  have nextWithin := next.within
  have records : third.records =
      (first.records ++ (items ++ more)).drop (gone + later) := by
    rw [next.records, earlier.records, ← List.append_assoc, ← List.drop_drop,
      List.drop_append_of_le_length within]
  have lengths := congrArg List.length earlier.records
  have lengthsNext := congrArg List.length next.records
  simp only [List.length_drop, List.length_append]
    at within nextWithin lengths lengthsNext
  refine ⟨records, ?_, ?_, next.bound.trans earlier.bound,
    next.slots.trans earlier.slots, ?_, ?_, ?_, ?_⟩
  · simp only [List.length_append]
    omega
  · rcases next.full with rfl | ⟨most, given, least⟩
    · rcases earlier.full with rfl | ⟨most, given, least⟩
      · exact .inl rfl
      · exact .inr ⟨most, given, by omega⟩
    · exact .inr ⟨most, earlier.bound ▸ given, least⟩
  · intro flying
    have still := next.waits (earlier.slots ▸ flying)
    rw [earlier.waits flying, still]
  · intro bounded
    exact earlier.ordered_append bounded
      (next.ordered (earlier.bound ▸ bounded))
  · exact Nat.le_trans earlier.versions.1 next.versions.1
  · intro some
    by_cases none : items = []
    · have newer : more ≠ [] := by
        rintro rfl
        exact some (by rw [none, List.append_nil])
      exact Nat.lt_of_le_of_lt earlier.versions.1 (next.versions.2 newer)
    · exact Nat.lt_of_lt_of_le (earlier.versions.2 none) next.versions.1

theorem records_eq_iff (appends : session.Appends items gone after)
    (bounded : session.bound ≠ some 0) :
    after.records = session.records ↔ items = [] ∧ gone = 0 := by
  constructor
  · intro same
    have within := appends.within
    have lengths := congrArg List.length appends.records
    simp only [same, List.length_drop, List.length_append] at within lengths
    have none : items = [] := by
      by_contra several
      have ends := List.getLast?_eq_some_getLast several
      have last : session.records.getLast? = some (items.getLast several) := by
        rw [← same, appends.getLast?_eq bounded, List.getLast?_append, ends,
          Option.some_or]
      have apart := (List.pairwise_append.mp (appends.ordered bounded)).2.2 _
        (List.mem_of_getLast? last) _ (List.mem_of_getLast? ends)
      exact Nat.lt_irrefl _ apart
    rw [none, List.length_nil] at lengths within
    exact ⟨none, by omega⟩
  · rintro ⟨rfl, rfl⟩
    rw [appends.records, List.drop_zero, List.append_nil]

theorem length_le (appends : session.Appends items gone after)
    (fits : ∀ most, session.bound = some most → items.length ≤ most) :
    items.length ≤ after.records.length := by
  rcases appends.full with rfl | ⟨most, given, least⟩
  · rw [appends.records, List.drop_zero, List.length_append]
    exact Nat.le_add_left _ _
  · exact Nat.le_trans (fits most given) least

theorem isSuffix (appends : session.Appends items gone after) :
    after.records <:+ session.records ++ items :=
  appends.records ▸ List.drop_suffix _ _

theorem suffix_of_fits (appends : session.Appends items gone after)
    (fits : ∀ most, session.bound = some most → items.length ≤ most) :
    items <:+ after.records :=
  List.suffix_of_suffix_length_le (List.suffix_append _ _) appends.isSuffix
    (appends.length_le fits)

end Appends

theorem beyondNewest_eq {session : Session} {log : OpenLog}
    (opened : session.opened = some log) {message : Message} {page : Page}
    (paged : Page.ofRecords log.file.name message.records = .ok page) :
    session.beyondNewest message =
      page.beyond .newer (log.window.edge? .newer) := by
  rw [beyondNewest, Session.edge?, opened, Option.bind_some,
    ← Page.records_of_ofRecords paged]
  cases log.window.edge? .newer with
  | none => rfl
  | some newest => exact (page.records_keepBeyond .newer newest).symm

theorem Tells.appends {session after : Session} {fetched : Bool}
    {received items : List Record} {gone : Nat}
    (tells : session.Tells fetched received (.forward items.length gone) after)
    (bound : after.bound = session.bound) (slots : after.slots = session.slots)
    (ordered : (session.records ++ items).Pairwise Record.Before)
    (records : after.records = (session.records ++ items).drop gone)
    (within : gone ≤ (session.records ++ items).length)
    (full : gone = 0 ∨
      ∃ most, session.bound = some most ∧ most ≤ after.records.length)
    (waits : session.slots.isInFlight .older = true → gone = 0) :
    session.Appends items gone after := by
  have newer := tells.versions .newer
  refine ⟨records, within, full, bound, slots, waits, fun _ => ordered, ?_, ?_⟩
  · exact Nat.le.intro newer.symm
  · intro several
    have positive := List.length_pos_iff.mpr several
    exact Nat.lt_of_lt_of_eq
      (Nat.lt_add_of_pos_right (Movement.bumps_forward positive gone _))
      newer.symm

/-- A push that is taken at the live end appends the records beyond the newest
held position. -/
theorem Pushed.appends {session after : Session} {message : Message}
    {movement : Movement}
    (pushed : session.Pushed message (.ok movement) after)
    (sound : session.Sound) (live : session.view.reached.newer = true) :
    ∃ gone, session.Appends (session.beyondNewest message) gone after ∧
      movement = .forward (session.beyondNewest message).length gone := by
  have tells := (pushed.moves sound).tells sound
  have afterSound := (pushed.moves sound).sound sound
  have bound := pushed.bound_eq
  have slots := pushed.slots_eq
  generalize ending : Except.ok movement = outcome at pushed
  cases pushed with
  | closed | foreign | unordered | unmerged => cases ending
  | ignored opened away =>
      rw [view_of_opened opened] at live
      cases live.symm.trans away
  | @merged log page added window opened same live paged merged =>
      cases ending
      have takes := (sound log opened).mergeLive live merged
      have items := beyondNewest_eq opened paged
      have put : window.records =
          session.records ++ session.beyondNewest message := by
        rw [takes.records, items, sound.records_of_opened opened]
        rfl
      have ordered := put ▸ takes.sound.ordered
      have moved : added =
          .forward (session.beyondNewest message).length 0 := by
        rw [takes.movement, items, Movement.add_newer_eq]
      subst moved
      obtain ⟨gone, grown, step, records, within, room, waits⟩ :=
        takes.sound.enforceBound_forward ((congrArg _ takes.reached).trans live)
          session.bound .newer session.slots.isInFlight
          (session.beyondNewest message).length
      have left := afterSound.records_of_opened (opened_settleWindow _ _ _ _)
      rw [fst_settleWindow, step] at tells ⊢
      rw [step] at left
      rw [put] at records within
      refine ⟨gone, tells.appends bound slots ordered (left.trans records)
        within ?_ waits, rfl⟩
      rw [left]
      exact room

/-- The newest records of a snapshot are the newest held ones. -/
theorem Sound.tail_snapshot {session : Session} (sound : session.Sound)
    (count : Nat) :
    session.snapshot.elim [] (·.tail count) =
      session.records.drop (session.records.length - count) := by
  cases opened : session.opened with
  | none =>
      rw [records_of_closed opened, List.drop_nil, snapshot, opened]
      rfl
  | some log =>
      rw [sound.records_of_opened opened, ← (sound log opened).tail_snapshot,
        snapshot, opened]
      rfl

/-- Messages are read from a source and pushed in turn, and every push is taken
at the live end. -/
inductive Takes (readAfter : σ → Option Nat → Except ReadError Message × σ) :
    σ → Session → List Message → Movement → σ → Session → Prop where
  | done {source : σ} {session : Session} :
      Takes readAfter source session [] {} source session
  | next {source between final : σ} {session later ended : Session}
      {message : Message} {messages : List Message}
      {movement moved : Movement}
      (live : session.view.reached.newer = true)
      (read : readAfter source (session.edge? .newer) = (.ok message, between))
      (pushed : session.push message = (.ok movement, later))
      (rest : Takes readAfter between later messages moved final ended) :
      Takes readAfter source session (message :: messages)
        (movement.combine moved) final ended

section

variable {readAfter : σ → Option Nat → Except ReadError Message × σ}
  {source after : σ} {session later : Session} {messages : List Message}
  {moved : Movement}

theorem Takes.appends
    (takes : Takes readAfter source session messages moved after later)
    (sound : session.Sound) :
    ∃ gone, session.Appends (session.appendedBy messages) gone later ∧
      moved = .forward (session.appendedBy messages).length gone := by
  induction takes with
  | done => exact ⟨0, .nothing sound, rfl⟩
  | @next _ _ _ session later _ message messages _ _ live read pushed rest ih =>
      have step := session.pushed message
      rw [pushed] at step
      obtain ⟨gone, first, movement⟩ := step.appends sound live
      obtain ⟨more, others, moved⟩ := ih ((step.moves sound).sound sound)
      have appended : session.appendedBy (message :: messages) =
          session.beyondNewest message ++ later.appendedBy messages := by
        rw [appendedBy, pushed]
      refine ⟨gone + more, appended ▸ first.trans others, ?_⟩
      rw [movement, moved, Movement.combine_forward, appended,
        List.length_append]

theorem Takes.sound
    (takes : Takes readAfter source session messages moved after later)
    (sound : session.Sound) : later.Sound := by
  induction takes with
  | done => exact sound
  | @next _ _ _ session _ _ message _ _ _ live read pushed rest ih =>
      have step := session.pushed message
      rw [pushed] at step
      exact ih ((step.moves sound).sound sound)

/-- The newest records that a snapshot shows afterwards, as many as were
appended, are those appended that are still held. -/
theorem Takes.tail_eq
    (takes : Takes readAfter source session messages moved after later)
    (sound : session.Sound) :
    later.snapshot.elim [] (·.tail moved.added.newer) =
      (session.appendedBy messages).drop
        ((session.appendedBy messages).length - later.held) := by
  obtain ⟨gone, appends, rfl⟩ := takes.appends sound
  have endSound := takes.sound sound
  rw [endSound.tail_snapshot, endSound.held_eq]
  exact newest_of_suffix appends.isSuffix

variable {batch reads : Nat} {total : Movement}

/-- Where catching up succeeds, every push was taken, and all of them are
reported. -/
theorem CatchesUp.takes_of_ok {outcome : Option (Except SessionError Movement)}
    (catchesUp : CatchesUp readAfter batch reads source session total outcome
      after later)
    {movement : Movement} (caught : outcome = some (.ok movement)) :
    ∃ messages moved, Takes readAfter source session messages moved after later ∧
      movement = total.combine moved := by
  induction catchesUp with
  | away =>
      cases caught
      exact ⟨[], {}, .done, rfl⟩
  | exhausted | unread | refused => cases caught
  | finished live read pushed last =>
      cases caught
      exact ⟨_, _, .next live read pushed .done, rfl⟩
  | onward live read pushed full moved rest ih =>
      obtain ⟨messages, moved, takes, rfl⟩ := ih caught
      exact ⟨_, _, .next live read pushed takes, Movement.combine_assoc _ _ _⟩

/-- What catching up fails at: a read, or the push of what was read. -/
inductive FailsAt (readAfter : σ → Option Nat → Except ReadError Message × σ)
    (source : σ) (session : Session) : SessionError → σ → Prop where
  | read {cause : ReadError} {next : σ}
      (read : readAfter source (session.edge? .newer) = (.error cause, next)) :
      FailsAt readAfter source session (.read cause) next
  | push {message : Message} {error : SessionError} {next : σ}
      (read : readAfter source (session.edge? .newer) = (.ok message, next))
      (refused : (session.push message).1 = .error error) :
      FailsAt readAfter source session error next

/-- Where catching up fails, every push before was taken, each of a full batch
that changed something, and what fails changes nothing more. -/
theorem CatchesUp.takes_of_error
    {outcome : Option (Except SessionError Movement)}
    (catchesUp : CatchesUp readAfter batch reads source session total outcome
      after later)
    {error : SessionError} (failed : outcome = some (.error error)) :
    ∃ messages moved last, Takes readAfter source session messages moved last later ∧
      FailsAt readAfter last later error after ∧
      (∀ message ∈ messages, batch ≤ message.records.length) ∧
      (messages = [] ↔ moved.isNoop = true) := by
  induction catchesUp with
  | away | exhausted | finished => cases failed
  | unread live read =>
      cases failed
      exact ⟨[], {}, _, .done, .read read, nofun, iff_of_true rfl rfl⟩
  | @refused _ _ _ session _ _ message _ live read pushed =>
      cases failed
      have step := session.pushed message
      rw [pushed] at step
      cases step.eq_of_error
      exact ⟨[], {}, _, .done, .push read (congrArg Prod.fst pushed), nofun,
        iff_of_true rfl rfl⟩
  | onward live read pushed full moves rest ih =>
      obtain ⟨messages, moved, last, takes, fails, others, _⟩ := ih failed
      refine ⟨_, _, last, .next live read pushed takes, fails, ?_, ?_⟩
      · exact List.forall_mem_cons.mpr ⟨full, others⟩
      · refine iff_of_false nofun fun still => ?_
        rw [(Movement.isNoop_combine.mp still).1] at moves
        cases moves

end

/-- Whatever a source answers, where catching up fails all that was appended
before stays, without the oldest records that the bound made go.  The read or
the push that fails changes nothing more, so the records held before are held
afterwards exactly if it was the first one. -/
theorem Arises.records_of_failed_catchUp {fetchLimit : Nat}
    {bound : Option Nat} {session : Session}
    (arises : Arises fetchLimit bound session)
    {readAfter : σ → Option Nat → Except ReadError Message × σ}
    {batch reads : Nat} {source : σ} {error : SessionError}
    (failed : (session.catchUp readAfter batch reads source {}).1 =
      some (.error error)) :
    let after := (session.catchUp readAfter batch reads source {}).2.1
    let later := (session.catchUp readAfter batch reads source {}).2.2
    ∃ messages moved last gone,
      Takes readAfter source session messages moved last later ∧
      FailsAt readAfter last later error after ∧
      (∀ message ∈ messages, batch ≤ message.records.length) ∧
      later.records =
        (session.records ++ session.appendedBy messages).drop gone ∧
      (gone = 0 ∨ ∃ most, bound = some most ∧ most ≤ later.records.length) ∧
      (bound ≠ some 0 → (later.records = session.records ↔ messages = [])) := by
  intro after later
  obtain ⟨messages, moved, last, takes, fails, full, still⟩ :=
    (catchesUp readAfter batch reads source session {}).takes_of_error failed
  obtain ⟨gone, appends, rfl⟩ := takes.appends arises.sound
  have room := appends.full
  rw [arises.bound_eq] at room
  refine ⟨messages, _, last, gone, takes, fails, full, appends.records, room, ?_⟩
  intro bounded
  rw [appends.records_eq_iff (arises.bound_eq ▸ bounded), still,
    Movement.isNoop_forward, List.length_eq_zero_iff]

/-- A source that gives its answers one after another, whatever it is asked. -/
def answersInTurn :
    List (Except ReadError Message) → Option Nat →
      Except ReadError Message × List (Except ReadError Message)
  | [], _ => (.ok {}, [])
  | answer :: rest, _ => (answer, rest)

/-- A batch of one record is read, and then the file is gone. -/
private def goneAfterOne : List (Except ReadError Message) :=
  [.ok { records := [{ position := 6 }] }, .error (.unknownFile "app.log")]

theorem Arises.records_of_failed_second_read :
    let session := (new 2 (some 2)).run openedAtEnd
    let later := (session.catchUp answersInTurn 1 2 goneAfterOne {}).2.2
    ∃ messages gone, messages ≠ [] ∧
      later.records =
        (session.records ++ session.appendedBy messages).drop gone := by
  intro session later
  have arises : Arises 2 (some 2) session := ⟨openedAtEnd, rfl⟩
  have failed : (session.catchUp answersInTurn 1 2 goneAfterOne {}).1 =
      some (.error (.read (.unknownFile "app.log"))) := by
    decide
  obtain ⟨messages, _, _, gone, _, _, _, records, _, same_iff⟩ :=
    arises.records_of_failed_catchUp failed
  have changed : later.records ≠ session.records := by decide
  exact ⟨messages, gone, mt (same_iff (by decide)).mpr changed, records⟩

/-- Catching up fails at its second read, and the record that it read first is
held. -/
theorem records_change_on_failed_catchUp :
    let session := (new 2 (some 2)).run openedAtEnd
    let caught := session.catchUp answersInTurn 1 2 goneAfterOne {}
    caught.1 = some (.error (.read (.unknownFile "app.log"))) ∧
      session.records = [{ position := 4 }, { position := 5 }] ∧
      caught.2.2.records = [{ position := 5 }, { position := 6 }] := by
  decide

end Session
end LogPager
