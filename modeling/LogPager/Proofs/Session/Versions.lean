import LogPager.Proofs.Session.Movements

/-!
# Versions tell what changed

The versions of a session never decrease, also when files are closed and opened
anew.  While a file is open and neither version has moved, it is the same
opening of the file with the same records.  An edge whose position moved has a
greater version, with one exception: a push that fills an empty window counts
for the newer edge alone.
-/

namespace LogPager

theorem Redraw.ofFlags_eq_none_iff {top bottom : Bool} :
    ofFlags top bottom = .none ↔ top = false ∧ bottom = false := by
  cases top <;> cases bottom <;> simp [ofFlags]

theorem Observer.observe_eq_none_iff (observer : Observer) (view : View) :
    (observer.observe view).1 = .none ↔ observer.lastSeen = some view.versions := by
  obtain ⟨_ | seen⟩ := observer
  · simp [observe]
  · obtain ⟨versions, reached⟩ := view
    obtain ⟨seenOlder, seenNewer⟩ := seen
    obtain ⟨older, newer⟩ := versions
    simp only [observe, Redraw.ofFlags_eq_none_iff, bne_eq_false_iff_eq,
      Option.some.injEq, PerEdge.mk.injEq]
    exact and_congr eq_comm eq_comm

namespace Session

/-- Versions do not decrease, and where a file is open under unmoved versions
one was open before with the same records. -/
structure Leads (session after : Session) : Prop where
  versions : ∀ edge,
    session.view.versions.get edge ≤ after.view.versions.get edge
  kept : after.opened.isSome = true →
    (∀ edge, session.view.versions.get edge = after.view.versions.get edge) →
      session.opened.isSome = true ∧ after.records = session.records

namespace Leads

theorem refl (session : Session) : session.Leads session := by
  constructor
  · intro edge
    exact Nat.le_refl _
  · intro isOpen _
    exact ⟨isOpen, rfl⟩

theorem trans {first second third : Session} (earlier : first.Leads second)
    (later : second.Leads third) : first.Leads third := by
  constructor
  · intro edge
    exact Nat.le_trans (earlier.versions edge) (later.versions edge)
  · intro isOpen same
    have between : ∀ edge, first.view.versions.get edge =
        second.view.versions.get edge := by
      intro edge
      apply Nat.le_antisymm (earlier.versions edge)
      rw [same]
      exact later.versions edge
    have onward : ∀ edge, second.view.versions.get edge =
        third.view.versions.get edge := by
      intro edge
      rw [← between, same]
    obtain ⟨wasOpen, recordsLater⟩ := later.kept isOpen onward
    obtain ⟨firstOpen, recordsEarlier⟩ := earlier.kept wasOpen between
    exact ⟨firstOpen, recordsLater.trans recordsEarlier⟩

theorem of_opened {session after : Session}
    (opened : after.opened = session.opened)
    (retired : after.retired = session.retired) : session.Leads after := by
  constructor
  · intro edge
    rw [view_eq opened retired]
  · intro isOpen _
    rw [← opened]
    exact ⟨isOpen, records_eq opened⟩

end Leads

theorem Moves.leads {session after : Session} {fetched : Bool}
    {received : List Record} {outcome : Except SessionError Movement}
    (moves : session.Moves fetched received outcome after)
    (sound : session.Sound) : session.Leads after := by
  have afterSound := moves.sound sound
  cases moves with
  | still opened retired nothing => exact .of_opened opened retired
  | @merged log file window movement _ opened settled changes =>
      constructor
      · intro edge
        rw [view_of_opened opened, view_of_opened settled]
        exact Nat.le.intro (changes.versions edge).symm
      · intro _ same
        rw [view_of_opened opened, view_of_opened settled] at same
        have still : ∀ edge, movement.bumps
            (fetched && movement.fills log.window.records) edge = 0 := by
          intro edge
          have unmoved : log.window.versions.get edge =
            window.versions.get edge := same edge
          have grown := changes.versions edge
          omega
        obtain ⟨front, back, accounts, _⟩ := changes.records
        refine ⟨by rw [opened]; rfl, ?_⟩
        rw [sound.records_of_opened opened, afterSound.records_of_opened settled]
        exact accounts.eq_of_bumps still

theorem versions_openFile (session : Session) (file : FileRef) (edge : Edge) :
    (session.openFile file).2.view.versions.get edge =
      session.view.versions.get edge + 1 := by
  have requested := session.requested_openFile file
  rw [view_eq requested.opened_eq requested.retired_eq]
  exact Versions.get_bumpBoth _ edge

theorem leads_openFile (session : Session) (file : FileRef) :
    session.Leads (session.openFile file).2 := by
  constructor
  · intro edge
    rw [versions_openFile]
    exact Nat.le_succ _
  · intro _ same
    have unmoved := same .older
    rw [versions_openFile] at unmoved
    omega

theorem leads_close (session : Session) : session.Leads session.close := by
  constructor
  · intro edge
    exact Nat.le_refl _
  · intro isOpen
    cases isOpen

theorem Sound.leads_perform {session : Session} (sound : session.Sound)
    (operation : Operation) : session.Leads (session.perform operation) := by
  cases operation with
  | openFile file => exact session.leads_openFile file
  | close => exact session.leads_close
  | requestMore edge =>
      have requested := session.requested edge
      exact .of_opened requested.opened_eq requested.retired_eq
  | deliver reply => exact ((session.delivered reply).moves sound).leads sound
  | push message => exact ((session.pushed message).moves sound).leads sound
  | subscribe | unsubscribe | take => exact .of_opened rfl rfl

theorem Sound.leads_run {session : Session} (sound : session.Sound)
    (operations : List Operation) : session.Leads (session.run operations) := by
  induction operations generalizing session with
  | nil => exact .refl session
  | cons operation rest ih =>
      exact (sound.leads_perform operation).trans (ih (sound.perform operation))

/-- Where a file is open under unmoved versions, no operation in between opened
or closed one. -/
theorem Sound.keepsFile_of_versions {session : Session} (sound : session.Sound)
    {operations : List Operation}
    (isOpen : (session.run operations).opened.isSome = true)
    (same : ∀ edge, session.view.versions.get edge =
      (session.run operations).view.versions.get edge) :
    ∀ operation ∈ operations, operation.KeepsFile := by
  induction operations generalizing session with
  | nil => exact nofun
  | cons operation rest ih =>
      -- Versions only grow, so equal ends leave none that moved in between.
      have first := sound.leads_perform operation
      have onward := (sound.perform operation).leads_run rest
      have between : ∀ edge, session.view.versions.get edge =
          (session.perform operation).view.versions.get edge := by
        intro edge
        apply Nat.le_antisymm (first.versions edge)
        rw [same]
        exact onward.versions edge
      have unmoved : ∀ edge,
          (session.perform operation).view.versions.get edge =
            ((session.perform operation).run rest).view.versions.get edge := by
        intro edge
        rw [← between]
        exact same edge
      intro later member
      rcases List.mem_cons.mp member with rfl | inRest
      · cases later with
        | openFile file =>
            have moved := versions_openFile session file .older
            have stayed : session.view.versions.get .older =
              (session.openFile file).2.view.versions.get .older := between .older
            omega
        | close =>
            have closed := (onward.kept isOpen unmoved).1
            cases closed
        | requestMore | deliver | push | subscribe | unsubscribe | take =>
            trivial
      · exact ih (sound.perform operation) isOpen unmoved later inRest

/-- Both versions only grow.  If a file is open before and after some
operations and neither version has moved, none of them opened or closed a file
and the same records are held.  So a viewer who looks at any moments and is
told that nothing needs drawing has missed nothing. -/
theorem Arises.versions_tell_changes {fetchLimit : Nat} {bound : Option Nat}
    {session : Session} (arises : Arises fetchLimit bound session)
    (operations : List Operation) :
    (∀ edge, session.view.versions.get edge ≤
      (session.run operations).view.versions.get edge) ∧
    (session.opened.isSome = true →
      (session.run operations).opened.isSome = true →
      session.view.versions = (session.run operations).view.versions →
        (∀ operation ∈ operations, operation.KeepsFile) ∧
          (session.run operations).records = session.records) ∧
    ∀ observer : Observer,
      ((observer.observe session.view).2.observe
        (session.run operations).view).1 = .none →
      (session.run operations).opened.isSome = true →
        session.opened.isSome = true ∧
          (∀ operation ∈ operations, operation.KeepsFile) ∧
            (session.run operations).records = session.records := by
  have sound := arises.sound
  have leads := sound.leads_run operations
  have unmoved : session.view.versions =
      (session.run operations).view.versions → ∀ edge,
        session.view.versions.get edge =
          (session.run operations).view.versions.get edge := by
    intro same edge
    rw [same]
  refine ⟨leads.versions, ?_, ?_⟩
  · intro _ isOpen same
    exact ⟨sound.keepsFile_of_versions isOpen (unmoved same),
      (leads.kept isOpen (unmoved same)).2⟩
  · intro observer nothing isOpen
    have same : session.view.versions =
        (session.run operations).view.versions :=
      Option.some.inj ((Observer.observe_eq_none_iff _ _).mp nothing)
    obtain ⟨wasOpen, records⟩ := leads.kept isOpen (unmoved same)
    exact ⟨wasOpen, sound.keepsFile_of_versions isOpen (unmoved same), records⟩

/-- A record is pushed that is held already. -/
theorem Arises.versions_after_repeated_push :
    ((new 2 (some 3)).run
      (openedAtEnd ++ [.requestMore .older,
        .push { records := [{ position := 5 }] }])).records =
      ((new 2 (some 3)).run openedAtEnd).records := by
  have arises : Arises 2 (some 3) ((new 2 (some 3)).run openedAtEnd) :=
    ⟨openedAtEnd, rfl⟩
  rw [run_append]
  exact ((arises.versions_tell_changes _).2.1 (by decide) (by decide)
    (by decide)).2

theorem Sound.edge?_eq {session : Session} (sound : session.Sound)
    (edge : Edge) :
    session.edge? edge = (edge.item? session.records).map (·.position) := by
  cases opened : session.opened with
  | none =>
      rw [records_of_closed opened, Edge.item?_eq_none.mpr rfl, Session.edge?,
        opened]
      rfl
  | some log =>
      rw [sound.records_of_opened opened, Session.edge?, opened]
      exact (sound log opened).edge?_eq edge

/-- An edge that moved has a greater version, unless a push filled an empty
window and the edge is the older one. -/
theorem Moves.bumped {session after : Session} {fetched : Bool}
    {received : List Record} {outcome : Except SessionError Movement}
    (moves : session.Moves fetched received outcome after)
    (sound : session.Sound) (bounded : session.bound ≠ some 0) {edge : Edge}
    (held : session.records ≠ [] ∨ fetched = true ∨ edge = .newer)
    (moved : after.edge? edge ≠ session.edge? edge) :
    session.view.versions.get edge < after.view.versions.get edge := by
  have afterSound := moves.sound sound
  cases moves with
  | still opened retired nothing =>
      rw [Session.edge?, Session.edge?, opened] at moved
      exact (moved rfl).elim
  | merged opened settled changes =>
      rw [sound.records_of_opened opened] at held
      have grown := changes.versions edge
      rw [view_of_opened opened, view_of_opened settled]
      apply Nat.lt_of_le_of_ne (Nat.le.intro grown.symm)
      intro same
      apply moved
      rw [sound.edge?_eq, afterSound.edge?_eq,
        sound.records_of_opened opened, afterSound.records_of_opened settled]
      refine congrArg _ (changes.item?_eq bounded ?_ held)
      omega

/-- Where a reply moves an edge, or a push the newer edge or an edge of a
window that holds records, the version of this edge grows. -/
theorem Arises.moved_edge_bumped {fetchLimit : Nat} {bound : Option Nat}
    {session : Session} (arises : Arises fetchLimit bound session)
    (bounded : bound ≠ some 0) (edge : Edge) :
    (∀ reply, (session.deliver reply).2.edge? edge ≠ session.edge? edge →
      session.view.versions.get edge <
        (session.deliver reply).2.view.versions.get edge) ∧
    ∀ message, (session.push message).2.edge? edge ≠ session.edge? edge →
      edge = .newer ∨ session.records ≠ [] →
        session.view.versions.get edge <
          (session.push message).2.view.versions.get edge := by
  have sound := arises.sound
  have bounded : session.bound ≠ some 0 := arises.bound_eq.symm ▸ bounded
  constructor
  · intro reply moved
    exact ((session.delivered reply).moves sound).bumped sound bounded
      (.inr (.inl rfl)) moved
  · intro message moved held
    apply ((session.pushed message).moves sound).bumped sound bounded _ moved
    rcases held with newer | some
    · exact .inr (.inr newer)
    · exact .inl some

theorem Arises.bumped_by_push_beyond_bound :
    ((new 2 (some 3)).run openedAtEnd).view.versions.older <
      (((new 2 (some 3)).run openedAtEnd).push
        { records := [{ position := 6 }, { position := 7 }] }).2.view.versions.older := by
  have arises : Arises 2 (some 3) ((new 2 (some 3)).run openedAtEnd) :=
    ⟨openedAtEnd, rfl⟩
  exact (arises.moved_edge_bumped (by decide) .older).2 _ (by decide)
    (.inr (by decide))

/-- An empty file is opened and read to both ends. -/
private def openedEmpty : List Operation :=
  [.openFile { name := "app.log" },
    .deliver {
      request := firstRequest
      result := .ok {
        source := some { name := "app.log" }, records := [], boundary := true } }]

/-- The first record that is pushed to an empty window becomes its oldest one
without a trace in the version of the older edge. -/
theorem older_version_stays_when_push_fills :
    ¬∀ fetchLimit bound session, Reachable fetchLimit bound session →
      bound ≠ some 0 → session.opened.isSome = true →
      ∀ message edge,
        (session.push message).2.edge? edge ≠ session.edge? edge →
          session.view.versions.get edge <
            (session.push message).2.view.versions.get edge := by
  intro bumped
  have reachable : Reachable 2 none ((new 2 none).run openedEmpty) :=
    ⟨openedEmpty, by decide, rfl⟩
  have grows := bumped 2 none _ reachable (by decide) (by decide)
    { records := [{ position := 0 }] } .older (by decide)
  exact absurd grows (by decide)

end Session
end LogPager
