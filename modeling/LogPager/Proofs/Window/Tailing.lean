import LogPager.Proofs.Window.Merging

/-!
# Windows that are filled from the live end

The first records of a window are read from the live end of its file, and from
then on only older records are fetched.  Such a window holds the live end as
soon as it holds a record, and while it holds none it has reached both edges or
neither.  Evicting to a positive bound therefore only takes oldest records.
-/

namespace LogPager

/-- A held position stays held or gives way to a later one. -/
def KeepsPosition (before after : Option Nat) : Prop :=
  ∀ position, before = some position →
    ∃ later, after = some later ∧ position ≤ later

namespace KeepsPosition

theorem refl (held : Option Nat) : KeepsPosition held held := by
  intro position same
  exact ⟨position, same, Nat.le_refl _⟩

theorem trans {first second third : Option Nat}
    (earlier : KeepsPosition first second) (later : KeepsPosition second third) :
    KeepsPosition first third := by
  intro position held
  obtain ⟨next, heldNext, le⟩ := earlier position held
  obtain ⟨last, heldLast, leNext⟩ := later next heldNext
  exact ⟨last, heldLast, Nat.le_trans le leNext⟩

end KeepsPosition

namespace Window

/-- A sound window that holds the live end once it holds anything. -/
structure Tailing (window : Window) : Prop where
  sound : window.Sound
  live : window.records ≠ [] → window.reached.newer = true
  blank : window.records = [] → window.reached.older = window.reached.newer

theorem continuing_tailing (versions : Versions) :
    (continuing versions).Tailing := by
  constructor
  · exact continuing_sound versions
  · intro some
    exact (some rfl).elim
  · intro _
    rfl

/-- A page of older records keeps a window at the live end, provided that it
was read from there exactly if the window is empty. -/
theorem TakesFetched.tailing {window after : Window} {page : Page}
    {fetched : Fetched} {movement : Movement} (tailing : window.Tailing)
    (takes : window.TakesFetched page fetched movement after)
    (older : fetched.edge = .older)
    (unanchored : fetched.unanchored = window.isEmpty) : after.Tailing := by
  have records := takes.records
  have olderReached := takes.reached .older
  have newerReached := takes.reached .newer
  simp only [PerEdge.get, Fetched.reaches, older, unanchored] at olderReached newerReached
  rw [older] at records
  by_cases empty : window.records = []
  · have wasEmpty := tailing.sound.isEmpty_iff.mpr empty
    have received : after.records = page.records := by
      rw [records, empty, tailing.sound.edge?_eq_none_iff.mpr empty]
      simp [Page.beyond]
    refine ⟨takes.sound, ?_, ?_⟩
    · intro some
      have positive : 0 < page.length := by
        rw [received] at some
        exact List.length_pos_iff.mpr some
      simp [newerReached, wasEmpty, positive]
    · intro none
      have nothing : page.length = 0 := by
        rw [received] at none
        exact List.length_eq_zero_iff.mpr none
      rw [olderReached, newerReached, tailing.blank empty]
      cases fetched.boundary <;> simp [wasEmpty, nothing]
  · refine ⟨takes.sound, ?_, ?_⟩
    · intro _
      rw [newerReached, tailing.live empty]
      rfl
    · intro none
      rw [records] at none
      simp [Edge.put, empty] at none

theorem TakesPushed.tailing {window after : Window} {page : Page}
    {movement : Movement} (live : window.reached.newer = true)
    (tailing : window.Tailing)
    (takes : window.TakesPushed page movement after) : after.Tailing := by
  refine ⟨takes.sound, ?_, ?_⟩
  · intro _
    rw [takes.reached, live]
  · intro none
    rw [takes.records] at none
    have empty : window.records = [] := (List.append_eq_nil_iff.mp none).1
    rw [takes.reached, tailing.blank empty]

private theorem keepsNewest_of_put {window after : Window} {edge : Edge}
    {items : List Record} (sound : window.Sound) (afterSound : after.Sound)
    (records : after.records = edge.put items window.records) :
    KeepsPosition (window.edge? .newer) (after.edge? .newer) := by
  intro position held
  rw [sound.edge?_eq, Option.map_eq_some_iff] at held
  obtain ⟨newest, found, rfl⟩ := held
  have member : newest ∈ after.records := by
    have inside := Edge.item?_mem found
    rw [records]
    cases edge <;> simp [Edge.put, inside]
  have last := List.getLast?_eq_some_getLast (List.ne_nil_of_mem member)
  refine ⟨_, ?_, Record.position_le_getLast afterSound.ordered last _ member⟩
  rw [afterSound.edge?_eq, Edge.item?, last]
  rfl

theorem TakesFetched.keepsNewest {window after : Window} {page : Page}
    {fetched : Fetched} {movement : Movement} (sound : window.Sound)
    (takes : window.TakesFetched page fetched movement after) :
    KeepsPosition (window.edge? .newer) (after.edge? .newer) :=
  keepsNewest_of_put sound takes.sound takes.records

theorem TakesPushed.keepsNewest {window after : Window} {page : Page}
    {movement : Movement} (sound : window.Sound)
    (takes : window.TakesPushed page movement after) :
    KeepsPosition (window.edge? .newer) (after.edge? .newer) :=
  keepsNewest_of_put sound takes.sound takes.records

theorem TakesPushed.edge?_older {window after : Window} {page : Page}
    {movement : Movement} (sound : window.Sound)
    (some : window.records ≠ [])
    (takes : window.TakesPushed page movement after) :
    after.edge? .older = window.edge? .older := by
  have kept : Edge.newer.opposite.item? after.records =
      Edge.newer.opposite.item? window.records := by
    rw [takes.records]
    exact Edge.item?_opposite_put some
  rw [takes.sound.edge?_eq, sound.edge?_eq]
  exact congrArg _ kept

/-- A window at the live end keeps a positive bound by giving up oldest
records, of which it had more than that. -/
theorem Tailing.enforceBound {window : Window} (tailing : window.Tailing)
    {bound : Option Nat} (bounded : bound ≠ some 0) (grown : Edge)
    (inFlight : Edge → Bool) (movement : Movement) :
    (window.enforceBound bound grown inFlight movement = (movement, window) ∧
      ∀ most, bound = some most →
        window.records.length ≤ most ∨ inFlight .older = true) ∨
    ∃ most after,
      bound = some most ∧ 0 < most ∧ most < window.records.length ∧
      inFlight .older = false ∧
      window.enforceBound bound grown inFlight movement =
        (movement.evict .older (window.records.length - most), after) ∧
      window.Loses .older (window.records.length - most) after := by
  have yields : window.records ≠ [] → window.yieldingEdge grown = .older := by
    intro some
    simp [yieldingEdge, tailing.live some]
  rcases tailing.sound.enforceBound bound grown inFlight movement with
    ⟨unchanged, reason⟩ | ⟨most, after, given, more, free, step, loses⟩
  · refine .inl ⟨unchanged, ?_⟩
    intro most given
    by_cases empty : window.records = []
    · exact .inl (by simp [empty])
    · rw [← yields empty]
      exact reason most given
  · have some : window.records ≠ [] := by
      intro empty
      simp [empty] at more
    rw [yields some] at free step loses
    have positive : 0 < most := by
      rw [given] at bounded
      exact Nat.pos_of_ne_zero fun zero => bounded (by rw [zero])
    exact .inr ⟨most, after, given, positive, more, free, step, loses⟩

theorem Tailing.enforceBound_of_inFlight {window : Window}
    (tailing : window.Tailing)
    {bound : Option Nat} (bounded : bound ≠ some 0) (grown : Edge)
    {inFlight : Edge → Bool} (flying : inFlight .older = true)
    (movement : Movement) :
    window.enforceBound bound grown inFlight movement = (movement, window) := by
  rcases tailing.enforceBound bounded grown inFlight movement with
    ⟨unchanged, _⟩ | ⟨_, _, _, _, _, free, _, _⟩
  · exact unchanged
  · rw [flying] at free
    cases free

theorem Loses.tailing {window after : Window} {amount : Nat}
    (tailing : window.Tailing) (remains : amount < window.records.length)
    (loses : window.Loses .older amount after) : after.Tailing := by
  have some : window.records ≠ [] := by
    intro empty
    simp [empty] at remains
  refine ⟨loses.sound, ?_, ?_⟩
  · intro _
    rw [loses.reached, tailing.live some]
  · intro none
    rw [loses.records] at none
    have gone := congrArg List.length none
    simp only [Edge.length_drop, List.length_nil] at gone
    omega

theorem Loses.keepsNewest {window after : Window} {amount : Nat}
    (sound : window.Sound) (remains : amount < window.records.length)
    (loses : window.Loses .older amount after) :
    KeepsPosition (window.edge? .newer) (after.edge? .newer) := by
  have kept : Edge.older.opposite.item? after.records =
      Edge.older.opposite.item? window.records := by
    rw [loses.records]
    exact Edge.item?_opposite_drop remains
  have same : after.edge? .newer = window.edge? .newer := by
    rw [loses.sound.edge?_eq, sound.edge?_eq]
    exact congrArg _ kept
  rw [same]
  exact .refl _

theorem Tailing.tailing_enforceBound {window : Window}
    (tailing : window.Tailing) {bound : Option Nat} (bounded : bound ≠ some 0)
    (grown : Edge) (inFlight : Edge → Bool) (movement : Movement) :
    (window.enforceBound bound grown inFlight movement).2.Tailing := by
  rcases tailing.enforceBound bounded grown inFlight movement with
    ⟨unchanged, _⟩ | ⟨most, after, _, positive, more, _, step, loses⟩
  · rw [unchanged]
    exact tailing
  · rw [step]
    exact loses.tailing tailing (by omega)

theorem Tailing.keepsNewest_enforceBound {window : Window}
    (tailing : window.Tailing) {bound : Option Nat} (bounded : bound ≠ some 0)
    (grown : Edge) (inFlight : Edge → Bool) (movement : Movement) :
    KeepsPosition (window.edge? .newer)
      ((window.enforceBound bound grown inFlight movement).2.edge? .newer) := by
  rcases tailing.enforceBound bounded grown inFlight movement with
    ⟨unchanged, _⟩ | ⟨most, after, _, positive, more, _, step, loses⟩
  · rw [unchanged]
    exact .refl _
  · rw [step]
    exact loses.keepsNewest tailing.sound (by omega)

theorem Tailing.evicted_newer_enforceBound {window : Window}
    (tailing : window.Tailing) {bound : Option Nat} (bounded : bound ≠ some 0)
    (grown : Edge) (inFlight : Edge → Bool) (movement : Movement) :
    (window.enforceBound bound grown inFlight movement).1.evicted.newer =
      movement.evicted.newer := by
  rcases tailing.enforceBound bounded grown inFlight movement with
    ⟨unchanged, _⟩ | ⟨most, after, _, _, _, _, step, _⟩
  · rw [unchanged]
  · rw [step]
    rfl

end Window
end LogPager
