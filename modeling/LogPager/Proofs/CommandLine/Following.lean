import LogPager.CommandLine.Follow
import LogPager.Proofs.CommandLine.Launching
import LogPager.Proofs.Session.Answering
import LogPager.Proofs.Session.ReadingOn

/-!
# What is printed while a file is followed

A turn prints as many of the newest held records as were counted since lines were
printed; at the first turn these are also the ones that were appended before it.
Answers that come in between put their records before them, and none is given
up while an answer is on its way.  So what is printed are the appended records
as far as they are still held: all of them, if they are no more than the bound.
-/

namespace LogPager

theorem drop_surplus_eq_iff {items : List α} {held : Nat} :
    items.drop (items.length - held) = items ↔ items.length ≤ held := by
  constructor
  · intro whole
    have same := congrArg List.length whole
    rw [List.length_drop] at same
    omega
  · intro fits
    rw [Nat.sub_eq_zero_of_le fits, List.drop_zero]

namespace Session

/-- What a catching up appended: the records of the messages it took, none if it
failed. -/
inductive Gains (readAfter : σ → Option Nat → Except ReadError Message × σ)
    (source : σ) (session : Session) :
    Option (Except SessionError Movement) → σ → Session → List Record →
      Prop where
  | taken {messages : List Message} {movement : Movement} {after : σ}
      {later : Session}
      (takes : Takes readAfter source session messages movement after later) :
      Gains readAfter source session (some (.ok movement)) after later
        (session.appendedBy messages)
  | failed {error : SessionError} {after : σ} {later : Session} :
      Gains readAfter source session (some (.error error)) after later []

theorem CatchesUp.exists_gains
    {readAfter : σ → Option Nat → Except ReadError Message × σ}
    {batch reads : Nat} {source after : σ} {session later : Session}
    {outcome : Option (Except SessionError Movement)}
    (catchesUp : CatchesUp readAfter batch reads source session {} outcome after
      later)
    (ended : outcome.isSome) :
    ∃ items, session.Gains readAfter source outcome after later items := by
  obtain ⟨result, rfl⟩ := Option.isSome_iff_exists.mp ended
  cases result with
  | error error => exact ⟨[], .failed⟩
  | ok movement =>
      obtain ⟨messages, moved, takes, rfl⟩ := catchesUp.takes_of_ok rfl
      rw [Movement.empty_combine]
      exact ⟨session.appendedBy messages, .taken takes⟩

end Session

theorem Viewer.tailLines_eq {viewer : Viewer} (sound : viewer.session.Sound)
    (styling : Styling) (count : Nat) :
    viewer.tailLines styling count =
      (viewer.session.records.drop
        (viewer.session.records.length - count)).map (·.display styling) := by
  rw [← sound.tail_snapshot, tailLines]
  cases viewer.session.snapshot <;> rfl

/-- Reading changes the maps of a folder, not where its files are. -/
theorem Session.Fills.contents?_eq {files : FileSystem} {wanted rounds : Nat}
    {folder next : LogFolder} {session ended : Session}
    {result : Except ReadError Unit}
    (fills : session.Fills
      (fun folder request => folder.fetch files request false) wanted rounds
      folder result next ended) (name : String) :
    next.contents? files name = folder.contents? files name := by
  let same (last : LogFolder) : Prop :=
    last.contents? files = folder.contents? files
  have start : same folder := rfl
  have kept : same next := by
    refine fills.keeps (fun source request holds => ?_) start
    show (source.fetch files request false).2.contents? files = _
    rw [LogFolder.fetch_eq, LogFolder.contents?_readContents]
    exact holds
  exact congrFun kept name

theorem LogFolder.pathOf_of_contents? {folder : LogFolder} {files : FileSystem}
    {name : String} {data : List UInt8}
    (found : folder.contents? files name = some data) :
    folder.pathOf files name = .ok (Path.join folder.path name) := by
  unfold contents? at found
  split at found
  · rename_i plain
    have file : files.isFile (Path.join folder.path name) = true := by
      unfold FileSystem.bytes? at found
      split at found
      · rename_i bytes node
        simp [FileSystem.isFile, node, Node.isFile]
      · cases found
    simp [pathOf, plain, file]
  · cases found

namespace Follower

/-- How the followed file is read. -/
def readAfter (follower : Follower) (files : FileSystem) :
    LogFolder → Option Nat → Except ReadError Message × LogFolder :=
  follower.live.readStill (follower.contents? files)

/-- The followers of a program that was launched, after any turns, with the
records that were appended since lines were printed. -/
inductive Reached (around : Surroundings) (options : Options) :
    Follower → List Record → Prop where
  | start {styling : Styling} {launched : Launched} {viewer : Viewer}
      {files : FileSystem} {follower : Follower} {waiting : List Record}
      (ran : launch around styling options = .ok launched)
      (shown : launched.viewer = some viewer)
      (started : start files viewer = .ok (some follower))
      (gains : viewer.session.Gains ((watching viewer).readAfter files)
        viewer.folder ((watching viewer).caught files).1
        ((watching viewer).caught files).2.1
        ((watching viewer).caught files).2.2 waiting) :
      Reached around options follower waiting
  | turn {follower next : Follower} {waiting : List Record}
      {files : FileSystem} {events : List FileEvent}
      {answer : LogFolder → Request → Except ReadError Message × LogFolder}
      {arrived : Nat} {styling : Styling} {lines : List String}
      (reached : Reached around options follower waiting)
      (taken : follower.turn files events answer arrived styling =
        some (lines, next)) :
      Reached around options next []

/-- The session comes from operations that can happen, with room for a
record. -/
structure Runs (fetchLimit : Nat) (bound : Option Nat) (follower : Follower) :
    Prop where
  bounded : bound ≠ some 0
  batched : 0 < follower.live.batch
  reachable : Session.Reachable fetchLimit bound follower.viewer.session

/-- The records counted since lines were printed were appended to a session
which the observer saw, or a later one. -/
structure Counts (follower : Follower) (items : List Record) : Prop where
  counted : follower.pending.added.newer = items.length
  appended : ∃ (before : Session) (gone : Nat) (seen : Versions),
    before.Appends items gone follower.viewer.session ∧
      follower.observer.lastSeen = some seen ∧
      seen.newer ≤ before.view.versions.newer

variable {fetchLimit : Nat} {bound : Option Nat} {follower next : Follower}
  {items : List Record}

theorem catchesUp_caught (follower : Follower) (files : FileSystem) :
    Session.CatchesUp (follower.readAfter files) follower.live.batch
      (follower.live.readsFor (follower.contents? files) follower.viewer.folder)
      follower.viewer.folder follower.viewer.session {}
      (follower.caught files).1 (follower.caught files).2.1
      (follower.caught files).2.2 :=
  Session.catchesUp ..

theorem Runs.polled (runs : follower.Runs fetchLimit bound)
    (files : FileSystem) (events : List FileEvent) :
    Session.Reachable fetchLimit bound (follower.polled files events).2.2 := by
  unfold Follower.polled LiveTail.poll
  split
  · exact runs.reachable.catchUp _ _ _ _ _
  · exact runs.reachable

/-- A look that succeeds takes what it reads, and nothing where the file was not
modified. -/
theorem takes_of_polled {files : FileSystem} {events : List FileEvent}
    {movement : Movement}
    (polled : (follower.polled files events).1 = some (.ok movement)) :
    ∃ messages, Session.Takes (follower.readAfter files)
      follower.viewer.folder follower.viewer.session messages movement
      (follower.polled files events).2.1
      (follower.polled files events).2.2 := by
  unfold Follower.polled LiveTail.poll at polled ⊢
  split at polled
  · rename_i modified
    simp only [modified, if_true]
    obtain ⟨messages, moved, takes, rfl⟩ :=
      (follower.catchesUp_caught files).takes_of_ok polled
    rw [Movement.empty_combine]
    exact ⟨messages, takes⟩
  · rename_i quiet
    simp only [quiet]
    cases polled
    exact ⟨[], .done⟩

theorem Runs.resume (runs : follower.Runs fetchLimit bound)
    {caught : Option (Except SessionError Movement) × LogFolder × Session}
    (reachable : Session.Reachable fetchLimit bound caught.2.2)
    (resumed : follower.resume caught = some next) :
    next.Runs fetchLimit bound := by
  obtain ⟨_, _, rfl⟩ := Option.map_eq_some_iff.mp resumed
  exact ⟨runs.bounded, runs.batched, reachable⟩

theorem Runs.poll (runs : follower.Runs fetchLimit bound)
    (answer : LogFolder → Request → Except ReadError Message × LogFolder)
    (arrived : Nat) : (follower.poll answer arrived).Runs fetchLimit bound :=
  ⟨runs.bounded, runs.batched,
    (runs.reachable.settle runs.bounded answer arrived _ _).1⟩

theorem Runs.counts_print (runs : follower.Runs fetchLimit bound)
    (styling : Styling) : (follower.print styling).2.Counts [] :=
  ⟨rfl, _, _, _, .nothing runs.reachable.arises.sound, rfl, Nat.le_refl _⟩

theorem Runs.isSome_turn (runs : follower.Runs fetchLimit bound)
    (files : FileSystem) (events : List FileEvent)
    (answer : LogFolder → Request → Except ReadError Message × LogFolder)
    (arrived : Nat) (styling : Styling) :
    (follower.turn files events answer arrived styling).isSome := by
  have arises := runs.reachable.arises
  have bounded : follower.viewer.session.bound ≠ some 0 :=
    arises.bound_eq ▸ runs.bounded
  rw [turn, Option.isSome_map]
  exact (Option.isSome_map ..).trans
    (LiveTail.isSome_poll runs.batched arises.sound bounded _ _ _)

theorem runs_watching {viewer : Viewer} (bounded : bound ≠ some 0)
    (reachable : Session.Reachable fetchLimit bound viewer.session) :
    (watching viewer).Runs fetchLimit bound :=
  ⟨bounded, Nat.lt_of_lt_of_le Nat.one_pos (Nat.le_max_right _ _), reachable⟩

theorem counts_watching {viewer : Viewer} (sound : viewer.session.Sound) :
    (watching viewer).Counts [] :=
  ⟨rfl, _, _, _, .nothing sound, rfl, Nat.le_refl _⟩

/-- What a catching up without failure appended is counted with what was counted
before. -/
theorem Counts.resume (counts : follower.Counts items)
    (sound : follower.viewer.session.Sound)
    {readAfter : LogFolder → Option Nat → Except ReadError Message × LogFolder}
    {messages : List Message} {movement : Movement} {folder : LogFolder}
    {later : Session}
    (takes : Session.Takes readAfter follower.viewer.folder
      follower.viewer.session messages movement folder later)
    (resumed : follower.resume (some (.ok movement), folder, later) =
      some next) :
    next.Counts (items ++ follower.viewer.session.appendedBy messages) := by
  obtain ⟨before, gone, seen, appends, saw, earlier⟩ := counts.appended
  obtain ⟨more, others, rfl⟩ := takes.appends sound
  cases resumed
  refine ⟨?_, before, gone + more, seen, appends.trans others, saw, earlier⟩
  rw [List.length_append, ← counts.counted]
  rfl

/-- The newest records are printed once the bottom version has moved since the
observer looked. -/
theorem lines_print {seen : Versions}
    (saw : follower.observer.lastSeen = some seen)
    (moved : seen.newer < follower.viewer.session.view.versions.newer)
    (several : 0 < follower.pending.added.newer) (styling : Styling) :
    (follower.print styling).1 =
      follower.viewer.tailLines styling follower.pending.added.newer := by
  have bottom : (follower.observer.observe
      follower.viewer.session.view).1.hasBottom = true := by
    simp [Observer.observe, saw, Nat.ne_of_gt moved]
  simp [print, bottom, several]

/-- What is counted is printed as far as it is still held, and what is no more
than the bound is still held. -/
theorem Counts.lines (counts : follower.Counts items)
    (runs : follower.Runs fetchLimit bound)
    (answer : LogFolder → Request → Except ReadError Message × LogFolder)
    (arrived : Nat) (styling : Styling) :
    let turned := (follower.poll answer arrived).print styling
    turned.1 = (items.drop
        (items.length - turned.2.viewer.session.held)).map
          (·.display styling) ∧
      ((∀ most, bound = some most → items.length ≤ most) →
        items.length ≤ turned.2.viewer.session.held) := by
  intro turned
  obtain ⟨before, gone, seen, appends, saw, earlier⟩ := counts.appended
  obtain ⟨reachable, prepends, still⟩ := runs.reachable.settle runs.bounded
    answer arrived follower.viewer.folder {}
  have newest := appends.newest_settled runs.reachable runs.bounded answer
    arrived follower.viewer.folder {}
  have sound := reachable.arises.sound
  have bounds := runs.reachable.arises.bound_eq
  generalize answered : follower.viewer.session.settle answer arrived
    follower.viewer.folder {} = settled at reachable prepends still newest sound
  have after : (follower.poll answer arrived).viewer.session =
      settled.2.2 := by
    rw [poll, answered]
  have counted : (follower.poll answer arrived).pending.added.newer =
      items.length := by
    rw [poll, answered, ← counts.counted]
    show follower.pending.added.newer + settled.1.added.newer = _
    rw [still]
    rfl
  have printed : turned.1 =
      (items.drop (items.length - settled.2.2.held)).map
        (·.display styling) := by
    by_cases none : items = []
    · simp [turned, print, counted, none]
    · have moved := Nat.lt_of_le_of_lt earlier
        (Nat.lt_of_lt_of_le (appends.versions.2 none) prepends.versions)
      rw [← after] at moved
      have several := counted ▸ List.length_pos_iff.mpr none
      have watched : (follower.poll answer arrived).observer.lastSeen =
          some seen := saw
      show ((follower.poll answer arrived).print styling).1 = _
      rw [lines_print watched moved several, Viewer.tailLines_eq (after ▸ sound),
        after, counted, newest, sound.held_eq]
  have left : turned.2.viewer.session = settled.2.2 := after
  rw [left]
  refine ⟨printed, fun fits => ?_⟩
  have bound_eq : before.bound = bound := appends.bound.symm.trans bounds
  have held := prepends.keeps_newest
    (appends.suffix_of_fits (bound_eq ▸ fits)) (bounds ▸ fits)
  exact sound.held_eq ▸ held.length_le

end Follower

theorem Viewer.reachable_openAt {files : FileSystem} {folder : LogFolder}
    {settings : Settings} {file : FileRef} {wanted : Nat} {viewer : Viewer}
    (opened : openAt files folder settings file wanted = .ok viewer) :
    Session.Reachable settings.fetchLimit settings.maxRecords
      viewer.session := by
  have reachable : Session.Reachable settings.fetchLimit settings.maxRecords
      ((Session.new settings.fetchLimit settings.maxRecords).openFile file).2 :=
    ⟨[.openFile file], ⟨trivial, trivial⟩, rfl⟩
  have filled := reachable.fill
    (fun folder request => folder.fetch files request false)
    wanted (wanted + 1) folder
  simp only [openAt, Session.fillOlder] at opened
  generalize Session.fill _ _ _ _ _ = filling at filled opened
  obtain ⟨result, next, session⟩ := filling
  cases result with
  | error cause => cases opened
  | ok =>
      cases opened
      exact filled

namespace Follower

theorem resume_of_start {viewer : Viewer} {files : FileSystem}
    {follower : Follower} (started : start files viewer = .ok (some follower)) :
    (watching viewer).resume ((watching viewer).caught files) =
      some follower := by
  unfold start at started
  cases found : viewer.folder.pathOf files viewer.file.name with
  | error cause =>
      rw [found] at started
      cases started
  | ok path =>
      rw [found] at started
      exact Except.ok.inj started

/-- A catching up that fails may have appended records before, but none of them
is counted. -/
theorem counts_of_start {viewer : Viewer} {files : FileSystem}
    {follower : Follower} {waiting : List Record}
    (sound : viewer.session.Sound)
    (started : start files viewer = .ok (some follower))
    (gains : viewer.session.Gains ((watching viewer).readAfter files)
      viewer.folder ((watching viewer).caught files).1
      ((watching viewer).caught files).2.1
      ((watching viewer).caught files).2.2 waiting) :
    follower.Counts waiting := by
  have ends := (watching viewer).catchesUp_caught files
  have resumed := resume_of_start started
  generalize (watching viewer).caught files = caught at ends gains resumed
  obtain ⟨outcome, folder, later⟩ := caught
  cases gains with
  | taken takes => exact (counts_watching sound).resume sound takes resumed
  | failed =>
      obtain ⟨messages, moved, last, takes, _⟩ := ends.takes_of_error rfl
      obtain ⟨gone, appends, _⟩ := takes.appends sound
      cases resumed
      exact ⟨rfl, later, 0, viewer.session.view.versions,
        .nothing (takes.sound sound), rfl, appends.versions.1⟩

theorem Reached.runs {around : Surroundings} {options : Options}
    {follower : Follower} {waiting : List Record}
    (reached : Reached around options follower waiting) :
    ∃ settings, around.settings options = .ok settings ∧
      follower.Runs settings.fetchLimit settings.maxRecords ∧
      follower.Counts waiting := by
  induction reached with
  | @start _ _ viewer files _ _ ran shown started gains =>
      obtain ⟨settings, folder, file, loaded, opened⟩ :=
        launched_openAt ran shown
      have bounded : settings.maxRecords ≠ some 0 := by
        intro given
        exact absurd (Surroundings.settings_fits loaded 0 given).1
          (Nat.lt_irrefl 0)
      have reachable := Viewer.reachable_openAt opened
      have counts := counts_of_start reachable.arises.sound started gains
      have runs := (runs_watching bounded reachable).resume
        (reachable.catchUp _ _ _ _ _) (resume_of_start started)
      exact ⟨settings, loaded, runs, counts⟩
  | @turn follower next _ files events answer arrived styling _ reached taken
      ih =>
      obtain ⟨settings, loaded, runs, _⟩ := ih
      obtain ⟨resumed, resumes, printed⟩ := Option.map_eq_some_iff.mp taken
      have polled := (runs.resume (runs.polled files events) resumes).poll
        answer arrived
      have next_eq : ((resumed.poll answer arrived).print styling).2 = next :=
        congrArg Prod.snd printed
      refine ⟨settings, loaded, ?_, next_eq ▸ polled.counts_print styling⟩
      exact next_eq ▸ ⟨polled.bounded, polled.batched, polled.reachable⟩

/-- Every turn of a program that follows its file comes to an end, whatever the
file has become. -/
theorem Reached.isSome_turn {around : Surroundings} {options : Options}
    {follower : Follower} {waiting : List Record}
    (reached : Reached around options follower waiting) (files : FileSystem)
    (events : List FileEvent)
    (answer : LogFolder → Request → Except ReadError Message × LogFolder)
    (arrived : Nat) (styling : Styling) :
    (follower.turn files events answer arrived styling).isSome := by
  obtain ⟨_, _, runs, _⟩ := reached.runs
  exact runs.isSome_turn files events answer arrived styling

end Follower

/-- Where catching up succeeds, what it counts is how many records it appended,
and that many of the newest records in a snapshot are those of them that are
still held.  A turn of a program that follows its file prints those of the
records appended since lines were printed that are still held.  Either is all of
them exactly if they are no more than what is held, which is so if they are no
more than the bound. -/
theorem tail_after_catchUp {fetchLimit : Nat} {bound : Option Nat}
    {session : Session} (arises : Session.Arises fetchLimit bound session) :
    (∀ (σ : Type) (readAfter : σ → Option Nat → Except ReadError Message × σ)
        batch reads source movement,
      (session.catchUp readAfter batch reads source {}).1 =
          some (.ok movement) →
        let (_, after, later) :=
          session.catchUp readAfter batch reads source {}
        ∃ messages,
          Session.Takes readAfter source session messages movement after later ∧
          let appended := session.appendedBy messages
          let tail := later.snapshot.elim [] (·.tail movement.added.newer)
          movement.added.newer = appended.length ∧
          tail = appended.drop (appended.length - later.held) ∧
          (tail = appended ↔ appended.length ≤ later.held) ∧
          ((∀ most, bound = some most → appended.length ≤ most) →
            appended.length ≤ later.held)) ∧
    ∀ around options follower waiting,
      Follower.Reached around options follower waiting →
      follower.viewer.session = session →
      ∀ files events movement,
        (follower.polled files events).1 = some (.ok movement) →
          ∃ messages,
            Session.Takes (follower.readAfter files) follower.viewer.folder
              session messages movement (follower.polled files events).2.1
              (follower.polled files events).2.2 ∧
            let appended := waiting ++ session.appendedBy messages
            ∀ answer arrived styling, ∃ lines next,
              follower.turn files events answer arrived styling =
                some (lines, next) ∧
              let held := next.viewer.session.held
              lines = (appended.drop (appended.length - held)).map
                (·.display styling) ∧
              (lines = appended.map (·.display styling) ↔
                appended.length ≤ held) ∧
              ((∀ most, bound = some most → appended.length ≤ most) →
                appended.length ≤ held) := by
  constructor
  · intro σ readAfter batch reads source movement caught
    obtain ⟨messages, moved, takes, rfl⟩ :=
      (Session.catchesUp readAfter batch reads source session {}).takes_of_ok
        caught
    rw [Movement.empty_combine]
    obtain ⟨gone, appends, counts⟩ := takes.appends arises.sound
    have tail := takes.tail_eq arises.sound
    refine ⟨messages, takes, congrArg (·.added.newer) counts, tail, ?_, ?_⟩
    · rw [tail]
      exact drop_surplus_eq_iff
    · intro fits
      rw [← arises.bound_eq] at fits
      exact (takes.sound arises.sound).held_eq ▸ appends.length_le fits
  · rintro around options follower waiting reached rfl files events movement
      polled
    obtain ⟨settings, _, runs, counts⟩ := reached.runs
    obtain ⟨messages, takes⟩ := Follower.takes_of_polled polled
    refine ⟨messages, takes, fun answer arrived styling => ?_⟩
    have later := runs.polled files events
    generalize looked : follower.polled files events = caught
      at polled takes later
    obtain ⟨outcome, folder, session⟩ := caught
    cases polled
    have resumes : follower.resume (some (.ok movement), folder, session) =
      some _ := rfl
    have resumed := runs.resume later resumes
    obtain ⟨lines, holds⟩ := (counts.resume arises.sound takes resumes).lines
      resumed answer arrived styling
    refine ⟨_, _, ?_, lines, ?_, fun fits => holds ?_⟩
    · rw [Follower.turn, looked]
      rfl
    · rw [lines, List.map_drop, ← List.length_map (·.display styling),
        drop_surplus_eq_iff]
    · exact runs.reachable.arises.bound_eq ▸ arises.bound_eq ▸ fits

theorem Follower.exists_start {fetchLimit : Nat} {bound : Option Nat}
    {viewer : Viewer} (bounded : bound ≠ some 0)
    (reachable : Session.Reachable fetchLimit bound viewer.session)
    {files : FileSystem} {data : List UInt8}
    (found : viewer.folder.contents? files viewer.file.name = some data) :
    ∃ follower waiting, start files viewer = .ok (some follower) ∧
      viewer.session.Gains ((watching viewer).readAfter files) viewer.folder
        ((watching viewer).caught files).1
        ((watching viewer).caught files).2.1
        ((watching viewer).caught files).2.2 waiting := by
  have runs := runs_watching bounded reachable
  have arises := reachable.arises
  have ended : ((watching viewer).caught files).1.isSome :=
    LiveTail.isSome_catchUp runs.batched arises.sound
      (arises.bound_eq ▸ bounded) _ viewer.folder
  have path := LogFolder.pathOf_of_contents? found
  have started : start files viewer =
      .ok ((watching viewer).resume ((watching viewer).caught files)) := by
    rw [start, path]
    rfl
  obtain ⟨items, gains⟩ :=
    ((watching viewer).catchesUp_caught files).exists_gains ended
  obtain ⟨result, caught⟩ := Option.isSome_iff_exists.mp ended
  rw [resume, caught] at started
  exact ⟨_, items, started, gains⟩

theorem reached_threeLines :
    ∃ follower waiting,
      Follower.Reached threeLines lastTwo follower waiting := by
  let file : FileRef := { name := "a" }
  let folder : LogFolder := { path := "/" }
  have found : folder.contents? threeLines.files file.name = some _ :=
    LogFolder.contents?_oneFile _
  have holds : folder.Holds threeLines.files
      (fun name => (folder.contents? threeLines.files name).getD [])
      file.name := by
    constructor
    · exact LogFolder.follows_of_new _ _
    · rw [found, Option.getD_some]
  have fits := Surroundings.settings_fits settings_lastTwo
  obtain ⟨rounds, viewer, fills, view, _⟩ :=
    Viewer.openAt_of_found holds fits .plain
  have launched := launch_of_openAt settings_lastTwo openAt_threeLines rfl rfl
    view .plain
  rw [← fills.contents?_eq, ← Viewer.file_of_openAt view] at found
  have bounded : (lastTwo.apply {}).maxRecords ≠ some 0 := by decide
  obtain ⟨follower, waiting, started, gains⟩ := Follower.exists_start bounded
    (Viewer.reachable_openAt view) found
  exact ⟨follower, waiting, .start launched rfl started gains⟩

/-- Three records are read at once while two are held. -/
private def burst : Message :=
  { records := [{ position := 6 }, { position := 7 }, { position := 8 }] }

/-- With a bound of three the burst takes the place of what was held.  A program
that was launched to follow a file of three lines takes turns. -/
theorem tail_after_burst :
    (let session := (Session.new 2 (some 3)).run Session.openedAtEnd
      let (_, _, later) :=
        session.catchUp Session.answersInTurn 4 1 [.ok burst] {}
      ∃ messages, session.appendedBy messages = burst.records ∧
        later.snapshot.elim [] (·.tail 3) = session.appendedBy messages) ∧
    ∃ follower waiting, Follower.Reached threeLines lastTwo follower waiting ∧
      ∀ answer arrived styling, ∃ lines next,
        ∃ appended : List Record,
        follower.turn threeLines.files [] answer arrived styling =
          some (lines, next) ∧
        lines = (appended.drop
          (appended.length - next.viewer.session.held)).map
            (Record.display styling) := by
  constructor
  · intro session
    have arises : Session.Arises 2 (some 3) session :=
      ⟨Session.openedAtEnd, rfl⟩
    obtain ⟨messages, takes, counts, _, whole, held⟩ :=
      (tail_after_catchUp arises).1 _ Session.answersInTurn 4 1 [.ok burst]
        (.forward 3 2) (by decide)
    have fits : ∀ most, some 3 = some most →
        (session.appendedBy messages).length ≤ most := by
      rintro most ⟨⟩
      exact Nat.le_of_eq counts.symm
    have tail := whole.mpr (held fits)
    exact ⟨messages, tail.symm.trans (by decide), tail⟩
  · obtain ⟨follower, waiting, reached⟩ := reached_threeLines
    refine ⟨follower, waiting, reached, fun answer arrived styling => ?_⟩
    obtain ⟨_, _, runs, _⟩ := reached.runs
    obtain ⟨messages, _, turns⟩ :=
      (tail_after_catchUp runs.reachable.arises).2 threeLines lastTwo follower
        waiting reached rfl threeLines.files [] {} rfl
    obtain ⟨lines, next, turned, printed, _⟩ := turns answer arrived styling
    exact ⟨lines, next, _, turned, printed⟩

/-- With a bound of two the first record of the burst is gone again before it
can be shown. -/
theorem tail_without_whole_burst :
    let session := (Session.new 2 (some 2)).run Session.openedAtEnd
    let (result, _, later) :=
      session.catchUp Session.answersInTurn 4 1 [.ok burst] {}
    result = some (.ok (.forward 3 3)) ∧
      session.appendedBy [burst] = burst.records ∧
      later.snapshot.elim [] (·.tail 3) =
        [{ position := 7 }, { position := 8 }] := by
  decide

end LogPager
