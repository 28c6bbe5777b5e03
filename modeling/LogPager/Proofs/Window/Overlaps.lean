import LogPager.Proofs.Window.Newest
import LogPager.Proofs.Window.Operations

/-!
# Which pages are joined to held records

Of a page that overlaps the held records only those beyond the held edge count.
The page is joined exactly if there are none, or if the innermost of them has
the position next to the held edge.  So a gap within the page, at the place
where the held records end, is found as surely as one before the page.
-/

namespace LogPager

/-- The position lies beyond the one that is held at an edge. -/
def Edge.isBeyond (edge : Edge) (held position : Nat) : Bool :=
  match edge with
  | older => position < held
  | newer => held < position

/-- What lies behind a gap is beyond the held position and not next to it. -/
theorem Edge.apart_of_leavesGap {edge : Edge} {held received : Nat}
    (gap : edge.leavesGap held received = true) :
    edge.isBeyond held received = true ∧ edge.abuts held received = false := by
  cases edge with
  | older =>
      simp only [leavesGap, isBeyond, abuts, decide_eq_true_eq,
        beq_eq_false_iff_ne] at gap ⊢
      omega
  | newer =>
      simp only [leavesGap, isBeyond, abuts, decide_eq_true_eq,
        beq_eq_false_iff_ne] at gap ⊢
      omega

namespace Page

/-- The records of a page beyond the position held at an edge. -/
def outside (page : Page) (edge : Edge) (held : Nat) : List Record :=
  page.records.filter fun record => edge.isBeyond held record.position

private theorem takeWhile_below {records : List Record} (held : Nat)
    (ordered : records.Pairwise Record.Before) :
    records.takeWhile (·.position < held) =
      records.filter (·.position < held) := by
  induction records with
  | nil => rfl
  | cons first rest ih =>
      obtain ⟨before, restOrdered⟩ := List.pairwise_cons.mp ordered
      by_cases below : first.position < held
      · rw [List.takeWhile_cons_of_pos (by simpa using below),
          List.filter_cons_of_pos (by simpa using below), ih restOrdered]
      · have none : rest.filter (·.position < held) = [] := by
          rw [List.filter_eq_nil_iff]
          intro record member
          have later : first.position < record.position := before record member
          simp only [decide_eq_true_eq]
          omega
        rw [List.takeWhile_cons_of_neg (by simpa using below),
          List.filter_cons_of_neg (by simpa using below), none]

private theorem dropWhile_upTo {records : List Record} (held : Nat)
    (ordered : records.Pairwise Record.Before) :
    records.dropWhile (·.position ≤ held) =
      records.filter (held < ·.position) := by
  induction records with
  | nil => rfl
  | cons first rest ih =>
      obtain ⟨before, restOrdered⟩ := List.pairwise_cons.mp ordered
      by_cases above : held < first.position
      · have all : rest.filter (held < ·.position) = rest := by
          rw [List.filter_eq_self]
          intro record member
          have later : first.position < record.position := before record member
          simp only [decide_eq_true_eq]
          omega
        rw [List.dropWhile_cons_of_neg (by simpa using above),
          List.filter_cons_of_pos (by simpa using above), all]
      · rw [List.dropWhile_cons_of_pos (by simpa using above),
          List.filter_cons_of_neg (by simpa using above), ih restOrdered]

/-- In the order of positions, what is kept of a page is all that lies outside
of the held records. -/
theorem records_keepBeyond (page : Page) (edge : Edge) (held : Nat) :
    (page.keepBeyond edge held).records = page.outside edge held := by
  cases edge with
  | older => exact takeWhile_below held page.ordered
  | newer => exact dropWhile_upTo held page.ordered

theorem outside_eq_records {page : Page} {edge : Edge} {held received : Nat}
    (facing : page.facing? edge = some received)
    (beyond : edge.isBeyond held received = true) :
    page.outside edge held = page.records := by
  rw [facing?_eq, Option.map_eq_some_iff] at facing
  obtain ⟨outer, found, rfl⟩ := facing
  apply List.filter_eq_self.mpr
  intro record member
  cases edge with
  | older =>
      have below := Record.position_le_getLast page.ordered found record member
      simp only [Edge.isBeyond, decide_eq_true_eq] at beyond ⊢
      omega
  | newer =>
      have above := Record.head_le_position page.ordered found record member
      simp only [Edge.isBeyond, decide_eq_true_eq] at beyond ⊢
      omega

end Page

namespace Window

variable {window : Window} {edge : Edge} {held : Nat} {page : Page}

/-- A page is not spliced exactly if the innermost of its records outside of
the held ones is not next to them, and then this gap is reported. -/
theorem splice_eq_error_iff (holds : window.edge? edge = some held)
    {error : SpliceError} :
    window.splice page edge = .error error ↔
      ∃ facing, edge.opposite.item? (page.outside edge held) = some facing ∧
        edge.abuts held facing.position = false ∧
        error = .gap edge held facing.position := by
  have kept : (page.keepBeyond edge held).facing? edge =
      (edge.opposite.item? (page.outside edge held)).map (·.position) := by
    rw [Page.facing?_eq, Page.records_keepBeyond]
  -- A gap that is found is one at the innermost record outside.
  have reported (outer : Record)
      (apart : edge.abuts held outer.position = false) :
      (Except.error (.gap edge held outer.position) :
          Except SpliceError (Nat × Window)) = .error error ↔
        ∃ facing, some outer = some facing ∧
          edge.abuts held facing.position = false ∧
          error = .gap edge held facing.position := by
    constructor
    · intro same
      cases same
      exact ⟨outer, rfl, apart, rfl⟩
    · rintro ⟨other, same, _, rfl⟩
      cases same
      rfl
  unfold splice
  rw [holds]
  cases facing : page.facing? edge with
  | none =>
      have nothing : page.outside edge held = [] := by
        rw [Page.outside, Page.facing?_eq_none_iff.mp facing, List.filter_nil]
      simp [nothing, Edge.item?_eq_none.mpr]
  | some received =>
      cases gap : edge.leavesGap held received with
      | true =>
          -- Nothing of the page is held, so it is refused as it came.
          obtain ⟨beyond, apart⟩ := Edge.apart_of_leavesGap gap
          have whole := Page.outside_eq_records facing beyond
          rw [Page.facing?_eq, ← whole, Option.map_eq_some_iff] at facing
          obtain ⟨outer, found, rfl⟩ := facing
          simp only [gap, if_true, found]
          exact reported outer apart
      | false =>
          simp only [gap, Bool.false_eq_true, if_false, append, holds, kept]
          cases innermost : edge.opposite.item? (page.outside edge held) with
          | none => simp [Except.map]
          | some outer =>
              cases joins : edge.abuts held outer.position with
              | true => simp [joins, Except.map]
              | false =>
                  simp only [Option.map_some, joins, Bool.false_eq_true,
                    if_false, Except.map]
                  exact reported outer joins

/-- How merging a page ends at an edge up to which records are held, if the
given records of the page lie outside of them: these are put beside the held
ones where they are none or come right next to them; otherwise the gap is
reported and the window stays. -/
structure Splices (window : Window) (edge : Edge) (held : Nat)
    (outside : List Record) (ending : Except SpliceError Movement × Window) :
    Prop where
  succeeds_iff : (∃ movement, ending.1 = .ok movement) ↔
    outside = [] ∨ ∃ facing, edge.opposite.item? outside = some facing ∧
      edge.abuts held facing.position = true
  records : ∀ movement, ending.1 = .ok movement →
    ending.2.records = edge.put outside window.records
  refused : ∀ error, ending.1 = .error error →
    ∃ facing, edge.opposite.item? outside = some facing ∧
      error = .gap edge held facing.position ∧ ending.2 = window

/-- A merge that is refused as the page is spliced, and otherwise puts what is
kept of the page beside the held records. -/
private theorem splices_settled (holds : window.edge? edge = some held)
    {result : Except SpliceError (Movement × Window)}
    (fails : ∀ error, result = .error error ↔
      window.splice page edge = .error error)
    (joins : ∀ movement after, result = .ok (movement, after) →
      after.records =
        edge.put (page.beyond edge (window.edge? edge)) window.records) :
    window.Splices edge held (page.outside edge held)
      (Edit.settled window result) := by
  cases result with
  | error error =>
      obtain ⟨facing, found, apart, same⟩ :=
        (splice_eq_error_iff holds).mp ((fails error).mp rfl)
      refine ⟨?_, fun _ => nofun, ?_⟩
      · refine iff_of_false nofun ?_
        rintro (empty | ⟨other, again, joined⟩)
        · rw [empty, Edge.item?_eq_none.mpr rfl] at found
          cases found
        · cases found.symm.trans again
          rw [apart] at joined
          cases joined
      · intro other refused
        cases refused
        exact ⟨facing, found, same, rfl⟩
  | ok merged =>
      obtain ⟨movement, after⟩ := merged
      refine ⟨iff_of_true ⟨movement, rfl⟩ ?_, ?_, fun _ => nofun⟩
      · cases innermost : edge.opposite.item? (page.outside edge held) with
        | none => exact .inl (Edge.item?_eq_none.mp innermost)
        | some facing =>
            refine .inr ⟨facing, rfl, ?_⟩
            rw [← Bool.not_eq_false]
            intro apart
            have refused := (splice_eq_error_iff holds).mpr
              ⟨facing, innermost, apart, rfl⟩
            cases (fails _).mpr refused
      · intro _ _
        have put := joins movement after rfl
        rw [holds, Page.beyond, Page.records_keepBeyond] at put
        exact put

theorem Sound.splices_mergeFetched (sound : window.Sound) {fetched : Fetched}
    (holds : window.edge? fetched.edge = some held) :
    window.Splices fetched.edge held (page.outside fetched.edge held)
      ((Edit.mergeFetched page fetched).apply window) := by
  have several := (sound.isEmpty_eq_false_iff_edge? _).mpr ⟨held, holds⟩
  rw [Edit.apply_mergeFetched]
  apply splices_settled holds
  · intro error
    exact mergeFetched_eq_error_iff several
  · intro movement after merged
    exact (sound.mergeFetched merged).records

theorem Sound.splices_mergeLive (sound : window.Sound)
    (live : window.reached.newer = true)
    (holds : window.edge? .newer = some held) :
    window.Splices .newer held (page.outside .newer held)
      ((Edit.mergeLive page).apply window) := by
  have several := (sound.isEmpty_eq_false_iff_edge? _).mpr ⟨held, holds⟩
  rw [Edit.apply_mergeLive]
  apply splices_settled holds
  · intro error
    rw [mergeLive_eq_error_iff several]
    refine ⟨fun refused => refused.2.2, fun refused => ⟨live, ?_, refused⟩⟩
    -- An empty page leaves no gap, so the one that was refused has records.
    rw [← Bool.not_eq_true]
    intro empty
    obtain ⟨facing, found, _⟩ := (splice_eq_error_iff holds).mp refused
    rw [Page.outside, List.isEmpty_iff.mp empty] at found
    cases found
  · intro movement after merged
    exact (sound.mergeLive live merged).records

/-- After any operations let a record be held at an edge.  A page that is merged
there, fetched or, at the live end, pushed, is joined exactly if none of its
records lies beyond the held one or the innermost that does is next to it.  Then
these records are put beside the held ones, which stay as they are; otherwise
the gap between the two is reported. -/
theorem splices_after_run (reached : PerEdge Bool) (versions : Versions)
    (operations : List Operation) (edge : Edge) {innermost : Record}
    (holds : edge.item? (run { reached, versions } operations).records =
      some innermost) (page : Page) :
    let window := run { reached, versions } operations
    let outside := page.records.filter fun record =>
      edge.isBeyond innermost.position record.position
    (∀ fetched, fetched.edge = edge →
      window.Splices edge innermost.position outside
        ((Edit.mergeFetched page fetched).apply window)) ∧
    (edge = .newer → window.reached.newer = true →
      window.Splices edge innermost.position outside
        ((Edit.mergeLive page).apply window)) := by
  intro window outside
  have sound : window.Sound := (sound_of_blank reached versions).run operations
  have held : window.edge? edge = some innermost.position := by
    rw [sound.edge?_eq, holds]
    rfl
  constructor
  · rintro fetched rfl
    exact sound.splices_mergeFetched held
  · rintro rfl live
    exact sound.splices_mergeLive live held

/-- A page with a gap where the held records end. -/
private def straddling : Page :=
  { file := "app.log"
    records := [{ position := 5 }, { position := 7 }]
    ordered := by simp [Record.Before] }

/-- Records 4 and 5 are held.  Of the records 5 and 7 only the second is not, and
it is not next to them. -/
theorem splices_straddling_page :
    let window := run { reached := .both true, versions := .both 0 }
      [.mergeLive {
        file := "app.log"
        records := [{ position := 4 }, { position := 5 }]
        ordered := by simp [Record.Before] }]
    window.Splices .newer 5 [{ position := 7 }]
      ((Edit.mergeLive straddling).apply window) := by
  intro window
  have holds : Edge.newer.item? window.records = some { position := 5 } := by
    subst window
    decide
  exact (splices_after_run _ _ _ .newer holds straddling).2 rfl (by decide)

end Window
end LogPager
