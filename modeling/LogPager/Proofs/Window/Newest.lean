import LogPager.Proofs.Window.Tailing

/-!
# The two edges of a window do not disturb each other

Whether a page is refused at an edge depends on what is held there, and not on
the records at the other edge.  A window at the live end that is brought within
its bound keeps its newest records, and it makes no difference to them whether
older ones were dropped before newer ones came or only afterwards.
-/

namespace LogPager.Window

variable {window other : Window} {edge : Edge} {page : Page}
  {error : SpliceError}

theorem mergeFetched_eq_error_iff {fetched : Fetched}
    (some : window.isEmpty = false) :
    window.mergeFetched page fetched = .error error ↔
      window.splice page fetched.edge = .error error := by
  unfold mergeFetched
  dsimp only
  cases window.splice page fetched.edge <;>
    simp [some, bind, Except.bind, pure, Except.pure]

theorem mergeLive_eq_error_iff (some : window.isEmpty = false) :
    window.mergeLive page = .error error ↔
      window.reached.newer = true ∧ page.isEmpty = false ∧
        window.splice page .newer = .error error := by
  unfold mergeLive
  cases window.reached.newer <;> cases page.isEmpty <;>
    cases window.splice page .newer <;>
    simp [some, bind, Except.bind, pure, Except.pure]

/-- Two windows that hold records have the same position at an edge, and both
or neither have reached it. -/
structure AgreeAt (edge : Edge) (window other : Window) : Prop where
  some : window.isEmpty = false
  otherSome : other.isEmpty = false
  held : other.edge? edge = window.edge? edge
  reached : other.reached.get edge = window.reached.get edge

namespace AgreeAt

theorem symm (agree : AgreeAt edge window other) :
    AgreeAt edge other window := by
  constructor
  · exact agree.otherSome
  · exact agree.some
  · exact agree.held.symm
  · exact agree.reached.symm

theorem of_item? (sound : window.Sound) (otherSound : other.Sound)
    (some : window.records ≠ [])
    (same : edge.item? other.records = edge.item? window.records)
    (reached : other.reached.get edge = window.reached.get edge) :
    AgreeAt edge window other := by
  constructor
  · exact sound.isEmpty_eq_false_iff.mpr some
  · rw [otherSound.isEmpty_eq_false_iff, Ne, ← Edge.item?_eq_none, same,
      Edge.item?_eq_none]
    exact some
  · rw [otherSound.edge?_eq, sound.edge?_eq, same]
  · exact reached

theorem append_error (agree : AgreeAt edge window other)
    (failed : window.append page edge = .error error) :
    other.append page edge = .error error := by
  unfold append at failed ⊢
  rw [agree.held]
  cases facing : page.facing? edge with
  | none => simp [facing] at failed
  | some received =>
      cases held : window.edge? edge with
      | none => simp [facing, held] at failed
      | some position =>
          simp only [facing, held] at failed ⊢
          split at failed
          · cases failed
          · rename_i away
            rw [if_neg away, failed]

theorem splice_error (agree : AgreeAt edge window other)
    (failed : window.splice page edge = .error error) :
    other.splice page edge = .error error := by
  unfold splice at failed ⊢
  rw [agree.held]
  cases facing : page.facing? edge with
  | none => simp [facing] at failed
  | some received =>
      cases held : window.edge? edge with
      | none => simp [facing, held] at failed
      | some position =>
          simp only [facing, held] at failed ⊢
          split at failed
          · rename_i gap
            rw [if_pos gap, failed]
          · rename_i joins
            rw [if_neg joins]
            cases appended :
                window.append (page.keepBeyond edge position) edge with
            | error cause =>
                rw [appended] at failed
                rw [agree.append_error appended]
                exact failed
            | ok after => simp [appended, Except.map] at failed

theorem mergeFetched_error {fetched : Fetched}
    (agree : AgreeAt fetched.edge window other)
    (failed : window.mergeFetched page fetched = .error error) :
    other.mergeFetched page fetched = .error error := by
  rw [mergeFetched_eq_error_iff agree.some] at failed
  rw [mergeFetched_eq_error_iff agree.otherSome]
  exact agree.splice_error failed

/-- A page that is merged into one of the windows is merged into the other. -/
theorem mergeFetched_ok {fetched : Fetched}
    (agree : AgreeAt fetched.edge window other)
    (merged : ∃ grown, window.mergeFetched page fetched = .ok grown) :
    ∃ grown, other.mergeFetched page fetched = .ok grown := by
  obtain ⟨grown, merged⟩ := merged
  cases outcome : other.mergeFetched page fetched with
  | error error =>
      rw [agree.symm.mergeFetched_error outcome] at merged
      cases merged
  | ok grown => exact ⟨grown, rfl⟩

theorem mergeLive_error (agree : AgreeAt .newer window other)
    (failed : window.mergeLive page = .error error) :
    other.mergeLive page = .error error := by
  rw [mergeLive_eq_error_iff agree.some] at failed
  obtain ⟨live, present, spliced⟩ := failed
  rw [mergeLive_eq_error_iff agree.otherSome]
  exact ⟨Eq.trans agree.reached live, present, agree.splice_error spliced⟩

end AgreeAt

/-- The newest records, as many as the bound allows. -/
def newest (bound : Option Nat) (records : List Record) : List Record :=
  bound.elim records fun most => records.drop (records.length - most)

/-- Records that newer ones push beyond the bound may be dropped before these
come or with them. -/
theorem newest_newest_append (bound : Option Nat) (held items : List Record) :
    newest bound (newest bound held ++ items) = newest bound (held ++ items) := by
  cases bound with
  | none => rfl
  | some most =>
      simp only [newest, Option.elim_some]
      generalize given : held.length - most = excess
      -- What goes in all is what went at first and then the rest of the excess.
      have later : (held ++ items).length - most =
          excess + ((held.drop excess ++ items).length - most) := by
        simp only [List.length_append, List.length_drop]
        omega
      have cut : (held ++ items).drop excess = held.drop excess ++ items :=
        List.drop_append_of_le_length (by omega)
      rw [later, ← List.drop_drop, cut]

theorem length_newest_le {bound : Option Nat} {most : Nat}
    (given : bound = some most) (records : List Record) :
    (newest bound records).length ≤ most := by
  rw [given, newest, Option.elim_some, List.length_drop]
  omega

theorem getLast?_newest {bound : Option Nat} (bounded : bound ≠ some 0)
    (records : List Record) :
    (newest bound records).getLast? = records.getLast? := by
  cases bound with
  | none => rfl
  | some most =>
      have positive : most ≠ 0 := fun zero => bounded (by rw [zero])
      simp only [newest, Option.elim_some, List.getLast?_drop]
      split
      · rename_i nothing
        have empty : records.length = 0 := by omega
        rw [List.length_eq_zero_iff.mp empty, List.getLast?_nil]
      · rfl

/-- A window at the live end that no request keeps as it is, is brought within
its bound by giving up all but the newest records. -/
theorem Tailing.records_enforceBound (tailing : window.Tailing)
    {bound : Option Nat} (bounded : bound ≠ some 0) (grown : Edge)
    {inFlight : Edge → Bool} (free : inFlight .older = false)
    (movement : Movement) :
    (window.enforceBound bound grown inFlight movement).2.records =
      newest bound window.records := by
  rcases tailing.enforceBound bounded grown inFlight movement with
    ⟨unchanged, reason⟩ | ⟨most, after, given, _, _, _, step, loses⟩
  · rw [unchanged]
    cases bound with
    | none => rfl
    | some most =>
        rcases reason most rfl with within | flying
        · simp [newest, Nat.sub_eq_zero_of_le within]
        · rw [free] at flying
          cases flying
  · rw [step, loses.records, given]
    rfl

theorem Sound.reached_enforceBound (sound : window.Sound)
    (bound : Option Nat) (grown : Edge) (inFlight : Edge → Bool)
    (movement : Movement) :
    (window.enforceBound bound grown inFlight movement).2.reached =
      window.reached := by
  rcases sound.enforceBound bound grown inFlight movement with
    ⟨unchanged, _⟩ | ⟨_, _, _, _, _, step, loses⟩
  · rw [unchanged]
  · rw [step, loses.reached]

theorem Sound.added_enforceBound (sound : window.Sound)
    (bound : Option Nat) (grown : Edge) (inFlight : Edge → Bool)
    (movement : Movement) :
    (window.enforceBound bound grown inFlight movement).1.added =
      movement.added := by
  rcases sound.enforceBound bound grown inFlight movement with
    ⟨unchanged, _⟩ | ⟨_, _, _, _, _, step, _⟩
  · rw [unchanged]
  · rw [step]
    rfl

end LogPager.Window
