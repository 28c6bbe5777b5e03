import LogPager.Proofs.Session.Paging
import LogPager.Proofs.Window.Snapshots
import LogPager.Session.Filling

/-!
# Filling ends with the last records of the file

Filling goes on as long as too few records are held and the start of the file
is not reached.  From a file that stays as it is every round brings a record or
reaches the start, and the window is never full before enough are held, so
filling ends, and the last records of the file are held.
-/

namespace LogPager.Session

/-- The source and the session after one request that waits, if there is one,
was answered. -/
def afterAnswer (answer : σ → Request → Except ReadError Message × σ)
    (source : σ) (session : Session) : σ × Session :=
  match session.answerOne answer source with
  | some (_, source, session) => (source, session)
  | none => (source, session)

/-- What filling comes to from a source and a session, and in how many
rounds. -/
inductive Fills (answer : σ → Request → Except ReadError Message × σ)
    (wanted : Nat) :
    Nat → σ → Session → Except ReadError Unit → σ → Session → Prop where
  | failed {source next : σ} {session later : Session} {error : ReadError}
      (round : session.afterAnswer answer source = (next, later))
      (failed : later.slots.status .older = .failed error) :
      Fills answer wanted 1 source session (.error error) next later
  | enough {source next : σ} {session later : Session}
      (round : session.afterAnswer answer source = (next, later))
      (fine : ∀ error, later.slots.status .older ≠ .failed error)
      (enough : wanted ≤ later.held ∨ later.view.reached.older = true) :
      Fills answer wanted 1 source session (.ok ()) next later
  | nothing {source next : σ} {session later ended : Session}
      (round : session.afterAnswer answer source = (next, later))
      (fine : ∀ error, later.slots.status .older ≠ .failed error)
      (few : ¬(wanted ≤ later.held ∨ later.view.reached.older = true))
      (asked : later.requestMore .older = (false, ended))
      (idle : ended.hasPending = false) :
      Fills answer wanted 1 source session (.ok ()) next ended
  | onward {rounds : Nat} {source next last : σ}
      {session later asking ended : Session} {made : Bool}
      {result : Except ReadError Unit}
      (round : session.afterAnswer answer source = (next, later))
      (fine : ∀ error, later.slots.status .older ≠ .failed error)
      (few : ¬(wanted ≤ later.held ∨ later.view.reached.older = true))
      (asked : later.requestMore .older = (made, asking))
      (pending : made = true ∨ asking.hasPending = true)
      (rest : Fills answer wanted rounds next asking result last ended) :
      Fills answer wanted (rounds + 1) source session result last ended

section

variable {answer : σ → Request → Except ReadError Message × σ}
  {wanted : Nat} {source next : σ} {session later : Session}

private theorem fill_succ (rounds : Nat) :
    session.fill answer wanted (rounds + 1) source =
      let (next, later) := session.afterAnswer answer source
      match later.slots.status .older with
      | .failed error => (.error error, next, later)
      | .idle | .pending =>
          if wanted ≤ later.held || later.view.reached.older then
            (.ok (), next, later)
          else
            let (made, asking) := later.requestMore .older
            if made || asking.hasPending then
              asking.fill answer wanted rounds next
            else (.ok (), next, asking) :=
  rfl

theorem fill_of_failed (round : session.afterAnswer answer source = (next, later))
    {error : ReadError} (failed : later.slots.status .older = .failed error)
    (rounds : Nat) :
    session.fill answer wanted (rounds + 1) source =
      (.error error, next, later) := by
  simp only [fill_succ, round, failed]

theorem fill_of_fine (round : session.afterAnswer answer source = (next, later))
    (fine : ∀ error, later.slots.status .older ≠ .failed error) {made : Bool}
    {asking : Session} (asked : later.requestMore .older = (made, asking))
    (rounds : Nat) :
    session.fill answer wanted (rounds + 1) source =
      if wanted ≤ later.held ∨ later.view.reached.older = true then
        (.ok (), next, later)
      else if made = true ∨ asking.hasPending = true then
        asking.fill answer wanted rounds next
      else (.ok (), next, asking) := by
  simp only [fill_succ, round, asked, Bool.or_eq_true, decide_eq_true_eq]
  split
  · rename_i error failed
    exact (fine error failed).elim
  · rfl
  · rfl

theorem Fills.fill_eq {rounds : Nat} {last : σ} {ended : Session}
    {result : Except ReadError Unit}
    (fills : Fills answer wanted rounds source session result last ended)
    {most : Nat} (allowed : rounds ≤ most) :
    session.fill answer wanted most source = (result, last, ended) := by
  induction fills generalizing most with
  | failed round failed =>
      obtain ⟨spare, rfl⟩ := Nat.exists_eq_add_of_le' allowed
      exact fill_of_failed round failed spare
  | enough round fine enough =>
      obtain ⟨spare, rfl⟩ := Nat.exists_eq_add_of_le' allowed
      rw [fill_of_fine round fine rfl, if_pos enough]
  | nothing round fine few asked idle =>
      obtain ⟨spare, rfl⟩ := Nat.exists_eq_add_of_le' allowed
      rw [fill_of_fine round fine asked, if_neg few, if_neg (by simp [idle])]
  | onward round fine few asked pending rest ih =>
      obtain ⟨spare, rfl⟩ := Nat.exists_eq_add_of_le' allowed
      rw [← Nat.add_assoc, fill_of_fine round fine asked, if_neg few,
        if_pos pending]
      exact ih (Nat.le_add_left _ _)

/-- What every answer leaves true of the source is still true in the end. -/
theorem Fills.keeps {kept : σ → Prop} {rounds : Nat} {ended : Session}
    {result : Except ReadError Unit}
    (fills : session.Fills answer wanted rounds source result next ended)
    (answered : ∀ source request, kept source → kept (answer source request).2)
    (holds : kept source) : kept next := by
  have after : ∀ {source next session later}, kept source →
      afterAnswer answer source session = (next, later) → kept next := by
    intro source next session later holds round
    unfold afterAnswer answerOne at round
    cases waits : session.waiting with
    | nil =>
        rw [waits] at round
        cases round
        exact holds
    | cons request others =>
        rw [waits] at round
        cases round
        exact answered source request holds
  induction fills with
  | failed round | enough round | nothing round => exact after holds round
  | onward round fine few asked pending rest ih => exact ih (after holds round)

end

theorem Pages.asks_again {contents : String → List UInt8} {name : String}
    {session : Session} {first : Nat}
    (pages : session.Pages contents name first)
    (idle : session.slots.isInFlight .older = false)
    (open_ : session.view.reached.older = false)
    (holding : first < (fileRecords (contents name)).length)
    (room : ∀ most, session.bound = some most → session.held < most) :
    ∃ asking, session.requestMore .older = (true, asking) ∧
      asking.Pages contents name first ∧
      asking.slots.isInFlight .older = true ∧ asking.bound = session.bound := by
  have made := pages.shows.requestMore_made idle open_ holding room
  have requested := session.requested .older
  rw [made] at requested
  exact ⟨_, Prod.ext made rfl, pages.requestMore .older,
    requested.flying pages.shows.faithful.anchored, requested.bound_eq⟩

/-- Filling from a file ends, at the latest once the missing records came one
by one, and holds the last records that are wanted. -/
theorem Pages.fills {contents : String → List UInt8} {name : String}
    {files : FileSystem} {wanted remaining : Nat} {folder : LogFolder}
    {session : Session} {first : Nat}
    (pages : session.Pages contents name first)
    (holds : folder.Holds files contents name)
    (flying : session.slots.isInFlight .older = true)
    (roomy : ∀ most, session.bound = some most → wanted ≤ most)
    (missing : wanted ≤
      (fileRecords (contents name)).length - first + remaining) :
    ∃ rounds next after last, rounds ≤ remaining + 1 ∧
      Fills (fun folder request => folder.fetch files request false) wanted
        rounds folder session (.ok ()) next after ∧
      after.ShowsFrom contents name last ∧
      last ≤ (fileRecords (contents name)).length - wanted := by
  induction remaining using Nat.strongRecOn generalizing folder session first
  rename_i remaining ih
  obtain ⟨_, next, later, step, nextHolds, laterPages, reached, status, idle,
    bound, _⟩ := pages.answerOne holds flying
  have round : session.afterAnswer
      (fun folder request => folder.fetch files request false) folder =
        (next, later) := by
    rw [afterAnswer, step]
  have fine : ∀ error, later.slots.status .older ≠ .failed error := by
    rw [status]
    exact nofun
  have held := laterPages.shows.held_eq
  have inside := laterPages.shows.inside
  have cut := Window.firstKept_le_max roomy
    (fileRecords (contents name)).length (first - session.fetchLimit)
  generalize Window.firstKept session.bound _ _ = line
    at laterPages held inside cut
  by_cases enough : wanted ≤ later.held ∨ later.view.reached.older = true
  · refine ⟨1, next, later, line, Nat.le_add_left _ _,
      .enough round fine enough, laterPages.shows, ?_⟩
    rcases enough with many | start
    · omega
    · have begins := reached.mp start
      omega
  · obtain ⟨few, open_⟩ := not_or.mp enough
    have asks := pages.asks
    have away : ¬first ≤ session.fetchLimit := fun begins =>
      open_ (reached.mpr begins)
    have back : line < first := by omega
    have room : ∀ most, later.bound = some most → later.held < most := by
      intro most given
      have room := roomy most (bound ▸ given)
      omega
    have within := pages.shows.inside
    obtain ⟨asking, asked, again, inFlight, same⟩ := laterPages.asks_again idle
      (Bool.not_eq_true _ ▸ open_) (Nat.lt_of_lt_of_le back within) room
    obtain ⟨rounds, last, after, line, counted, fills, shows, holding⟩ :=
      ih (remaining - 1) (by omega) again nextHolds inFlight
        (same.trans bound ▸ roomy) (by omega)
    exact ⟨rounds + 1, last, after, line, by omega,
      .onward round fine enough asked (.inl rfl) fills, shows, holding⟩

theorem ShowsFrom.tail_eq {session : Session} {contents : String → List UInt8}
    {name : String} {first : Nat} (shows : session.ShowsFrom contents name first)
    {count : Nat} (enough : first ≤ (fileRecords (contents name)).length - count) :
    session.snapshot.elim [] (·.tail count) =
      (fileRecords (contents name)).drop
        ((fileRecords (contents name)).length - count) := by
  have anchored := shows.faithful.anchored
  obtain ⟨log, opened, _⟩ := shows.opened
  rw [snapshot, opened, Option.map_some, Option.elim_some,
    (anchored.sound log opened).tail_snapshot,
    ← anchored.sound.records_of_opened opened, shows.records,
    List.length_drop, List.drop_drop]
  congr 1
  omega

/-- A file that is opened by a new session and stays as it is: filling ends, and
the last records of the file can be shown. -/
theorem fillOlder_from_file {folder : LogFolder} {files : FileSystem}
    {contents : String → List UInt8} {file : FileRef}
    (holds : folder.Holds files contents file.name) (fetchLimit : Nat)
    {bound : Option Nat} (bounded : bound ≠ some 0) {wanted : Nat}
    (roomy : ∀ most, bound = some most → wanted ≤ most) :
    let opened := ((Session.new fetchLimit bound).openFile file).2
    ∃ rounds next after,
      Fills (fun folder request => folder.fetch files request false) wanted
        rounds folder opened (.ok ()) next after ∧
      opened.fillOlder (fun folder request => folder.fetch files request false)
        wanted folder = (.ok (), next, after) ∧
      after.snapshot.elim [] (·.tail wanted) =
        (fileRecords (contents file.name)).drop
          ((fileRecords (contents file.name)).length - wanted) := by
  intro opened
  have faithful := Faithful.new fetchLimit bounded contents
  have pages := pages_openFile faithful (Nat.le_max_right _ _) nofun file
  have flying := flying_openFile faithful.anchored file
  have same : opened.bound = bound :=
    ((Session.new fetchLimit bound).requested_openFile file).bound_eq
  obtain ⟨rounds, next, after, last, counted, fills, shows, enough⟩ :=
    pages.fills holds flying (same ▸ roomy) (Nat.le_add_left _ _)
  exact ⟨rounds, next, after, fills, fills.fill_eq counted,
    shows.tail_eq enough⟩

end LogPager.Session
