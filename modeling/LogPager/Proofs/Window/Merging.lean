import LogPager.Proofs.Window.Records
import LogPager.Window.Merge
import Mathlib.Data.List.TakeWhile

/-!
# What merging does to the records of a window

Every merge puts some records of a page at one edge of the held ones and says
how many.  The boundary flags then follow from the page and its request alone,
and keeping the bound only ever takes records away from one edge.
-/

namespace LogPager

theorem Record.position_le_getLast {records : List Record} {last : Record}
    (ordered : records.Pairwise Record.Before)
    (ends : records.getLast? = some last) :
    ∀ record ∈ records, record.position ≤ last.position := by
  obtain ⟨earlier, rfl⟩ := List.getLast?_eq_some_iff.mp ends
  intro record member
  rcases List.mem_append.mp member with inside | atEnd
  · exact Nat.le_of_lt
      ((List.pairwise_append.mp ordered).2.2 record inside last (by simp))
  · exact Nat.le_of_eq (by rw [List.mem_singleton.mp atEnd])

theorem Record.head_le_position {records : List Record} {first : Record}
    (ordered : records.Pairwise Record.Before)
    (begins : records.head? = some first) :
    ∀ record ∈ records, first.position ≤ record.position := by
  obtain ⟨later, rfl⟩ := List.head?_eq_some_iff.mp begins
  intro record member
  rcases List.mem_cons.mp member with rfl | inside
  · exact Nat.le_refl _
  · exact Nat.le_of_lt (List.rel_of_pairwise_cons ordered inside)

/-- Ordered records put at an edge of ordered ones that they abut are ordered
again. -/
theorem Edge.pairwise_put {edge : Edge} {items held : List Record}
    {inner outer : Record}
    (itemsOrdered : items.Pairwise Record.Before)
    (heldOrdered : held.Pairwise Record.Before)
    (innermost : edge.item? held = some inner)
    (facing : edge.opposite.item? items = some outer)
    (abuts : edge.abuts inner.position outer.position = true) :
    (edge.put items held).Pairwise Record.Before := by
  cases edge with
  | older =>
      refine List.pairwise_append.mpr ⟨itemsOrdered, heldOrdered, ?_⟩
      intro item itemMember record recordMember
      have below := Record.position_le_getLast itemsOrdered facing item itemMember
      have above := Record.head_le_position heldOrdered innermost record recordMember
      have next : outer.position + 1 = inner.position := by
        simpa [Edge.abuts] using abuts
      show item.position < record.position
      omega
  | newer =>
      refine List.pairwise_append.mpr ⟨heldOrdered, itemsOrdered, ?_⟩
      intro record recordMember item itemMember
      have below := Record.position_le_getLast heldOrdered innermost record recordMember
      have above := Record.head_le_position itemsOrdered facing item itemMember
      have next : inner.position + 1 = outer.position := by
        simpa [Edge.abuts] using abuts
      show record.position < item.position
      omega

namespace Page

theorem firstUnordered?_eq_none_iff {records : List Record} :
    firstUnordered? records = none ↔ records.Pairwise Record.Before := by
  constructor
  · exact ordered_of_firstUnordered?_eq_none
  · intro ordered
    fun_induction firstUnordered? records with
    | case1 first second rest unordered =>
        have before : first.position < second.position :=
          List.rel_of_pairwise_cons ordered List.mem_cons_self
        omega
    | case2 first second rest step ih =>
        exact ih (List.pairwise_cons.mp ordered).2
    | case3 records short => rfl

theorem records_of_ofRecords {file : String} {records : List Record}
    {page : Page} (made : ofRecords file records = .ok page) :
    page.records = records := by
  unfold ofRecords at made
  split at made
  · cases made
  · cases made
    rfl

theorem ofRecords_of_ordered (file : String) {records : List Record}
    (ordered : records.Pairwise Record.Before) :
    ofRecords file records = .ok { file, records, ordered } := by
  have none := firstUnordered?_eq_none_iff.mpr ordered
  unfold ofRecords
  split
  · simp_all
  · rfl

theorem ofRecords_of_unordered (file : String) {records : List Record}
    {position : Nat} (unordered : firstUnordered? records = some position) :
    ofRecords file records = .error (.unordered position) := by
  unfold ofRecords
  split <;> simp_all

theorem facing?_eq (page : Page) (edge : Edge) :
    page.facing? edge =
      (edge.opposite.item? page.records).map (·.position) := by
  cases edge <;> rfl

theorem facing?_eq_none_iff {page : Page} {edge : Edge} :
    page.facing? edge = none ↔ page.records = [] := by
  rw [facing?_eq, Option.map_eq_none_iff, Edge.item?_eq_none]

end Page

namespace Window

/-- The window after records were put at one of its edges. -/
structure Gains (window : Window) (edge : Edge) (items : List Record)
    (after : Window) : Prop where
  sound : after.Sound
  records : after.records = edge.put items window.records
  reached : after.reached = window.reached
  versions : after.versions = window.versions

theorem Sound.gains_nothing {window : Window} (sound : window.Sound)
    (edge : Edge) : window.Gains edge [] window := by
  constructor
  · exact sound
  · simp
  · rfl
  · rfl

theorem Sound.append {window after : Window} {page : Page} {edge : Edge}
    (sound : window.Sound) (appended : window.append page edge = .ok after) :
    window.Gains edge page.records after := by
  unfold Window.append at appended
  cases facing : page.facing? edge with
  | none =>
      simp only [facing, Except.ok.injEq] at appended
      rw [Page.facing?_eq_none_iff.mp facing, ← appended]
      exact sound.gains_nothing edge
  | some received =>
      have some : page.records ≠ [] := by
        intro empty
        simp [Page.facing?_eq_none_iff.mpr empty] at facing
      cases edgeHeld : window.edge? edge with
      | none =>
          have empty := sound.edge?_eq_none_iff.mp edgeHeld
          simp only [facing, edgeHeld, Except.ok.injEq] at appended
          subst appended
          refine ⟨sound.joinAt some ?_, records_joinAt _ _ _, rfl, rfl⟩
          simpa [empty] using page.ordered
      | some held =>
          simp only [facing, edgeHeld] at appended
          split at appended
          · rename_i abuts
            cases appended
            rw [Page.facing?_eq, Option.map_eq_some_iff] at facing
            rw [sound.edge?_eq, Option.map_eq_some_iff] at edgeHeld
            obtain ⟨outer, outerFound, rfl⟩ := facing
            obtain ⟨inner, innerFound, rfl⟩ := edgeHeld
            refine ⟨sound.joinAt some ?_, records_joinAt _ _ _, rfl, rfl⟩
            exact Edge.pairwise_put page.ordered sound.ordered innerFound
              outerFound abuts
          · cases appended

theorem append_error {window : Window} {page : Page} {edge : Edge}
    {error : SpliceError} (failed : window.append page edge = .error error) :
    ∃ held received, error = .gap edge held received := by
  unfold Window.append at failed
  split at failed
  · cases failed
  · split at failed
    · cases failed
    · split at failed
      · cases failed
      · cases failed
        exact ⟨_, _, rfl⟩

theorem append_of_abuts (window : Window) (page : Page) (edge : Edge)
    (abuts : ∀ received, page.facing? edge = some received →
      ∀ held, window.edge? edge = some held →
        edge.abuts held received = true) :
    ∃ after, window.append page edge = .ok after := by
  unfold Window.append
  cases facing : page.facing? edge with
  | none => exact ⟨window, rfl⟩
  | some received =>
      cases edgeHeld : window.edge? edge with
      | none => exact ⟨_, rfl⟩
      | some held => simp [abuts received facing held edgeHeld]

end Window

namespace Page

/-- The records of a page beyond the position held at an edge, all of them
where nothing is held. -/
def beyond (page : Page) (edge : Edge) : Option Nat → List Record
  | none => page.records
  | some held => (page.keepBeyond edge held).records

theorem beyond_of_records_eq_nil {page : Page} (empty : page.records = [])
    (edge : Edge) (held : Option Nat) : page.beyond edge held = [] := by
  cases held with
  | none => exact empty
  | some held =>
      cases edge with
      | older => simp [beyond, keepBeyond, keepBefore, empty]
      | newer => simp [beyond, keepBeyond, keepAfter, empty]

theorem beyond_of_abuts {page : Page} {edge : Edge} {held received : Nat}
    (facing : page.facing? edge = some received)
    (abuts : edge.abuts held received = true) :
    page.beyond edge (some held) = page.records := by
  rw [facing?_eq, Option.map_eq_some_iff] at facing
  obtain ⟨outer, found, rfl⟩ := facing
  cases edge with
  | older =>
      have next : outer.position + 1 = held := by simpa [Edge.abuts] using abuts
      apply List.takeWhile_eq_self_iff.mpr
      intro record member
      have below := Record.position_le_getLast page.ordered found record member
      simp only [decide_eq_true_eq]
      omega
  | newer =>
      have next : held + 1 = outer.position := by simpa [Edge.abuts] using abuts
      apply List.dropWhile_eq_self_iff.mpr
      intro positive
      have above := Record.head_le_position page.ordered found _
        (List.getElem_mem positive)
      simp only [decide_eq_true_eq]
      omega

theorem beyond_eq_records {page : Page} {edge : Edge} {held : Option Nat}
    (abuts : ∀ received, page.facing? edge = some received →
      ∀ position, held = some position →
        edge.abuts position received = true) :
    page.beyond edge held = page.records := by
  cases held with
  | none => rfl
  | some position =>
      cases facing : page.facing? edge with
      | none =>
          have empty := facing?_eq_none_iff.mp facing
          rw [beyond_of_records_eq_nil empty, empty]
      | some received =>
          exact beyond_of_abuts facing (abuts received facing position rfl)

end Page

namespace Window

theorem Sound.fill {window after : Window} {page : Page} {edge : Edge}
    {added : Nat} (sound : window.Sound) (empty : window.records = [])
    (filled : window.fill page edge = .ok (added, after)) :
    window.Gains edge (page.beyond edge (window.edge? edge)) after ∧
      added = (page.beyond edge (window.edge? edge)).length := by
  rw [sound.edge?_eq_none_iff.mpr empty]
  unfold Window.fill at filled
  cases appended : window.append page edge with
  | error error => simp [appended, Except.map] at filled
  | ok grown =>
      simp only [appended, Except.map, Except.ok.injEq, Prod.mk.injEq] at filled
      obtain ⟨rfl, rfl⟩ := filled
      exact ⟨sound.append appended, rfl⟩

theorem Sound.splice {window after : Window} {page : Page} {edge : Edge}
    {added : Nat} (sound : window.Sound) (some : window.records ≠ [])
    (spliced : window.splice page edge = .ok (added, after)) :
    window.Gains edge (page.beyond edge (window.edge? edge)) after ∧
      added = (page.beyond edge (window.edge? edge)).length := by
  unfold Window.splice at spliced
  cases facing : page.facing? edge with
  | none =>
      have nothing : page.beyond edge (window.edge? edge) = [] :=
        Page.beyond_of_records_eq_nil (Page.facing?_eq_none_iff.mp facing) _ _
      simp only [facing, Except.ok.injEq, Prod.mk.injEq] at spliced
      obtain ⟨rfl, rfl⟩ := spliced
      rw [nothing]
      exact ⟨sound.gains_nothing edge, rfl⟩
  | some received =>
      cases edgeHeld : window.edge? edge with
      | none => exact (some (sound.edge?_eq_none_iff.mp edgeHeld)).elim
      | some held =>
          simp only [facing, edgeHeld] at spliced
          split at spliced
          · cases spliced
          · cases appended : window.append (page.keepBeyond edge held) edge with
            | error error => simp [appended, Except.map] at spliced
            | ok grown =>
                simp only [appended, Except.map, Except.ok.injEq,
                  Prod.mk.injEq] at spliced
                obtain ⟨rfl, rfl⟩ := spliced
                exact ⟨sound.append appended, rfl⟩

theorem fill_error {window : Window} {page : Page} {edge : Edge}
    {error : SpliceError} (failed : window.fill page edge = .error error) :
    ∃ held received, error = .gap edge held received := by
  unfold fill at failed
  cases appended : window.append page edge with
  | error cause =>
      simp only [appended, Except.map, Except.error.injEq] at failed
      exact failed ▸ append_error appended
  | ok after => simp [appended, Except.map] at failed

theorem splice_error {window : Window} {page : Page} {edge : Edge}
    {error : SpliceError} (failed : window.splice page edge = .error error) :
    ∃ held received, error = .gap edge held received := by
  unfold splice at failed
  split at failed
  · rename_i received held _ _
    split at failed
    · cases failed
      exact ⟨_, _, rfl⟩
    · cases appended : window.append (page.keepBeyond edge held) edge with
      | error cause =>
          simp only [appended, Except.map, Except.error.injEq] at failed
          exact failed ▸ append_error appended
      | ok after => simp [appended, Except.map] at failed
  · cases failed

theorem Sound.fill_of_empty {window : Window} (sound : window.Sound)
    (empty : window.records = []) (page : Page) (edge : Edge) :
    ∃ grown, window.fill page edge = .ok grown := by
  have nothing : window.edge? edge = none := sound.edge?_eq_none_iff.mpr empty
  obtain ⟨after, appended⟩ :=
    append_of_abuts window page edge (by simp [nothing])
  exact ⟨(page.length, after), by simp [Window.fill, appended, Except.map]⟩

theorem splice_of_abuts {window : Window} {page : Page} {edge : Edge}
    (abuts : ∀ received, page.facing? edge = some received →
      ∀ held, window.edge? edge = some held →
        edge.abuts held received = true) :
    ∃ grown, window.splice page edge = .ok grown := by
  unfold splice
  cases facing : page.facing? edge with
  | none => exact ⟨_, rfl⟩
  | some received =>
      cases edgeHeld : window.edge? edge with
      | none => exact ⟨_, rfl⟩
      | some held =>
          have joins := abuts received facing held edgeHeld
          have noGap : edge.leavesGap held received = false := by
            cases edge <;> simp_all [Edge.abuts, Edge.leavesGap]
          have whole : (page.keepBeyond edge held).facing? edge = page.facing? edge := by
            rw [Page.facing?_eq, Page.facing?_eq]
            exact congrArg _ (congrArg _ (Page.beyond_of_abuts facing joins))
          obtain ⟨after, appended⟩ :=
            append_of_abuts window (page.keepBeyond edge held) edge
              (by simpa [whole] using abuts)
          simp [noGap, appended, Except.map]

end Window

/-- Whether a page of `received` records shows that an edge is reached. -/
def Fetched.reaches (fetched : Fetched) (wasEmpty : Bool) (received : Nat)
    (edge : Edge) : Bool :=
  (fetched.boundary || 0 < received) &&
    if edge = fetched.edge then fetched.boundary || received < fetched.limit
    else fetched.unanchored && wasEmpty

namespace Window

theorem noteBoundary_eq (window : Window) (fetched : Fetched)
    (wasEmpty : Bool) (received : Nat) :
    window.noteBoundary fetched wasEmpty received =
      { window with
        reached := (window.noteBoundary fetched wasEmpty received).reached } := by
  unfold noteBoundary
  split
  · split <;> split <;> rfl
  · rfl

theorem reached_noteBoundary (window : Window) (fetched : Fetched)
    (wasEmpty : Bool) (received : Nat) (edge : Edge) :
    (window.noteBoundary fetched wasEmpty received).reached.get edge =
      (window.reached.get edge || fetched.reaches wasEmpty received edge) := by
  unfold noteBoundary Fetched.reaches
  rcases fetched with ⟨toward, limit, boundary, unanchored⟩
  cases boundary <;> cases unanchored <;> cases wasEmpty <;>
    cases toward <;> cases edge <;>
    by_cases positive : 0 < received <;> by_cases short : received < limit <;>
    simp [positive, short, setReached, PerEdge.set, PerEdge.get, Edge.opposite]

theorem Sound.noteBoundary {window : Window} (sound : window.Sound)
    (fetched : Fetched) (wasEmpty : Bool) (received : Nat) :
    (window.noteBoundary fetched wasEmpty received).Sound := by
  rw [noteBoundary_eq]
  exact ⟨sound.filled, sound.counted, sound.ordered, sound.shown⟩

theorem Sound.bump {window : Window} (sound : window.Sound) (edge : Edge) :
    (window.bump edge).Sound :=
  ⟨sound.filled, sound.counted, sound.ordered, sound.shown⟩

/-- What a window becomes by a fetched page. -/
structure TakesFetched (window : Window) (page : Page) (fetched : Fetched)
    (movement : Movement) (after : Window) : Prop where
  sound : after.Sound
  records : after.records = fetched.edge.put
    (page.beyond fetched.edge (window.edge? fetched.edge)) window.records
  movement : movement = Movement.add {} fetched.edge
    (page.beyond fetched.edge (window.edge? fetched.edge)).length
  reached : ∀ edge, after.reached.get edge = (window.reached.get edge ||
    fetched.reaches window.isEmpty page.length edge)
  versions : after.versions =
    if page.beyond fetched.edge (window.edge? fetched.edge) = [] then
      window.versions
    else if window.records = [] then window.versions.bumpBoth
    else window.versions.bump fetched.edge

private theorem Gains.takesFetched {window grown : Window} {page : Page}
    {fetched : Fetched} {versions : Versions}
    (gains : window.Gains fetched.edge
      (page.beyond fetched.edge (window.edge? fetched.edge)) grown)
    (counted : versions =
      if page.beyond fetched.edge (window.edge? fetched.edge) = [] then
        window.versions
      else if window.records = [] then window.versions.bumpBoth
      else window.versions.bump fetched.edge) :
    window.TakesFetched page fetched
      (Movement.add {} fetched.edge
        (page.beyond fetched.edge (window.edge? fetched.edge)).length)
      ({ grown with versions }.noteBoundary fetched window.isEmpty
        page.length) := by
  have sound : Sound { grown with versions } :=
    ⟨gains.sound.filled, gains.sound.counted, gains.sound.ordered,
      gains.sound.shown⟩
  constructor
  · exact sound.noteBoundary _ _ _
  · rw [noteBoundary_eq]
    exact gains.records
  · rfl
  · intro edge
    rw [reached_noteBoundary, ← gains.reached]
  · rw [noteBoundary_eq]
    exact counted

theorem Sound.mergeFetched {window after : Window} {page : Page}
    {fetched : Fetched} {movement : Movement} (sound : window.Sound)
    (merged : window.mergeFetched page fetched = .ok (movement, after)) :
    window.TakesFetched page fetched movement after := by
  unfold Window.mergeFetched at merged
  cases empty : window.isEmpty with
  | true =>
      have none : window.records = [] := sound.isEmpty_iff.mp empty
      cases filled : window.fill page fetched.edge with
      | error error => simp [empty, filled, bind, Except.bind] at merged
      | ok grown =>
          obtain ⟨added, grown⟩ := grown
          obtain ⟨gains, rfl⟩ := sound.fill none filled
          simp only [empty, filled, if_true, bind, Except.bind, pure,
            Except.pure, Except.ok.injEq, Prod.mk.injEq] at merged
          obtain ⟨rfl, rfl⟩ := merged
          convert gains.takesFetched rfl using 1
          simp only [empty, none, if_true, List.length_pos_iff, ite_not]
          split
          · rw [← gains.versions]
          · rw [← gains.versions]; rfl
  | false =>
      have some : window.records ≠ [] := sound.isEmpty_eq_false_iff.mp empty
      cases spliced : window.splice page fetched.edge with
      | error error => simp [empty, spliced, bind, Except.bind] at merged
      | ok grown =>
          obtain ⟨added, grown⟩ := grown
          obtain ⟨gains, rfl⟩ := sound.splice some spliced
          simp only [empty, spliced, bind, Except.bind, pure,
            Except.pure, Except.ok.injEq, Prod.mk.injEq, Bool.false_eq_true,
            if_false] at merged
          obtain ⟨rfl, rfl⟩ := merged
          convert gains.takesFetched rfl using 1
          simp only [empty, some, if_false, List.length_pos_iff, ite_not]
          split
          · rw [← gains.versions]
          · rw [← gains.versions]; rfl

/-- The only reason not to merge a page is a gap at its edge. -/
theorem mergeFetched_error {window : Window} {page : Page} {fetched : Fetched}
    {error : SpliceError}
    (failed : window.mergeFetched page fetched = .error error) :
    ∃ held received, error = .gap fetched.edge held received := by
  unfold Window.mergeFetched at failed
  cases empty : window.isEmpty with
  | true =>
      cases filled : window.fill page fetched.edge with
      | error cause =>
          simp only [empty, filled, if_true, bind, Except.bind,
            Except.error.injEq] at failed
          exact failed ▸ fill_error filled
      | ok grown =>
          simp [empty, filled, bind, Except.bind, pure, Except.pure] at failed
  | false =>
      cases spliced : window.splice page fetched.edge with
      | error cause =>
          simp only [empty, spliced, Bool.false_eq_true, if_false, bind,
            Except.bind, Except.error.injEq] at failed
          exact failed ▸ splice_error spliced
      | ok grown =>
          simp [empty, spliced, bind, Except.bind, pure, Except.pure] at failed

theorem Sound.mergeFetched_of_abuts {window : Window} (sound : window.Sound)
    (page : Page) (fetched : Fetched)
    (abuts : ∀ received, page.facing? fetched.edge = some received →
      ∀ held, window.edge? fetched.edge = some held →
        fetched.edge.abuts held received = true) :
    ∃ merged, window.mergeFetched page fetched = .ok merged := by
  unfold Window.mergeFetched
  cases empty : window.isEmpty with
  | true =>
      obtain ⟨grown, filled⟩ :=
        sound.fill_of_empty (sound.isEmpty_iff.mp empty) page fetched.edge
      simp [filled, bind, Except.bind, pure, Except.pure]
  | false =>
      obtain ⟨grown, spliced⟩ := splice_of_abuts abuts
      simp [spliced, bind, Except.bind, pure, Except.pure]

/-- What a window that holds the live end becomes by a pushed page. -/
structure TakesPushed (window : Window) (page : Page)
    (movement : Movement) (after : Window) : Prop where
  sound : after.Sound
  records : after.records = Edge.newer.put
    (page.beyond .newer (window.edge? .newer)) window.records
  movement : movement = Movement.add {} .newer
    (page.beyond .newer (window.edge? .newer)).length
  reached : after.reached = window.reached
  versions : after.versions =
    if page.beyond .newer (window.edge? .newer) = [] then window.versions
    else window.versions.bump .newer

private theorem Gains.takesPushed {window grown : Window} {page : Page}
    (gains : window.Gains .newer
      (page.beyond .newer (window.edge? .newer)) grown) :
    window.TakesPushed page
      (Movement.add {} .newer (page.beyond .newer (window.edge? .newer)).length)
      (if 0 < (page.beyond .newer (window.edge? .newer)).length then
        grown.bump .newer
      else grown) := by
  by_cases nothing : page.beyond .newer (window.edge? .newer) = []
  · rw [if_neg (by simp [nothing])]
    exact ⟨gains.sound, gains.records, rfl, gains.reached,
      by rw [if_pos nothing, gains.versions]⟩
  · rw [if_pos (List.length_pos_iff.mpr nothing)]
    exact ⟨gains.sound.bump .newer, gains.records, rfl, gains.reached,
      by rw [if_neg nothing, ← gains.versions]; rfl⟩

theorem Sound.mergeLive {window after : Window} {page : Page}
    {movement : Movement} (sound : window.Sound)
    (live : window.reached.newer = true)
    (merged : window.mergeLive page = .ok (movement, after)) :
    window.TakesPushed page movement after := by
  unfold Window.mergeLive at merged
  cases absent : page.isEmpty with
  | true =>
      have nothing : page.beyond .newer (window.edge? .newer) = [] :=
        Page.beyond_of_records_eq_nil (List.isEmpty_iff.mp absent) _ _
      simp only [live, absent, Bool.not_true, Bool.false_or, if_true, pure,
        Except.pure, Except.ok.injEq, Prod.mk.injEq] at merged
      obtain ⟨rfl, rfl⟩ := merged
      have gains : window.Gains .newer
          (page.beyond .newer (window.edge? .newer)) window :=
        nothing ▸ sound.gains_nothing .newer
      simpa [nothing, Movement.add, PerEdge.modify, PerEdge.get, PerEdge.set,
        PerEdge.both] using gains.takesPushed
  | false =>
      cases empty : window.isEmpty with
      | true =>
          cases filled : window.fill page .newer with
          | error error =>
              simp [live, absent, empty, filled, bind, Except.bind] at merged
          | ok grown =>
              obtain ⟨added, grown⟩ := grown
              obtain ⟨gains, rfl⟩ :=
                sound.fill (sound.isEmpty_iff.mp empty) filled
              simp only [live, absent, empty, filled, Bool.not_true,
                Bool.or_self, Bool.false_eq_true, if_false, if_true, bind,
                Except.bind, pure, Except.pure, Except.ok.injEq,
                Prod.mk.injEq] at merged
              obtain ⟨rfl, rfl⟩ := merged
              exact gains.takesPushed
      | false =>
          cases spliced : window.splice page .newer with
          | error error =>
              simp [live, absent, empty, spliced, bind, Except.bind] at merged
          | ok grown =>
              obtain ⟨added, grown⟩ := grown
              obtain ⟨gains, rfl⟩ :=
                sound.splice (sound.isEmpty_eq_false_iff.mp empty) spliced
              simp only [live, absent, empty, spliced, Bool.not_true,
                Bool.or_self, Bool.false_eq_true, if_false, bind,
                Except.bind, pure, Except.pure, Except.ok.injEq,
                Prod.mk.injEq] at merged
              obtain ⟨rfl, rfl⟩ := merged
              exact gains.takesPushed

theorem Sound.mergeLive_of_abuts {window : Window} (sound : window.Sound)
    (page : Page)
    (abuts : ∀ received, page.facing? .newer = some received →
      ∀ held, window.edge? .newer = some held →
        Edge.newer.abuts held received = true) :
    ∃ merged, window.mergeLive page = .ok merged := by
  unfold Window.mergeLive
  split
  · exact ⟨_, rfl⟩
  · cases empty : window.isEmpty with
    | true =>
        obtain ⟨grown, filled⟩ :=
          sound.fill_of_empty (sound.isEmpty_iff.mp empty) page .newer
        simp [filled, bind, Except.bind, pure, Except.pure]
    | false =>
        obtain ⟨grown, spliced⟩ := splice_of_abuts abuts
        simp [spliced, bind, Except.bind, pure, Except.pure]

/-- The window after records were evicted from one of its edges. -/
structure Loses (window : Window) (edge : Edge) (amount : Nat)
    (after : Window) : Prop where
  sound : after.Sound
  records : after.records = edge.drop amount window.records
  reached : after.reached = window.reached
  versions : after.versions = window.versions.bump edge

theorem Sound.loses_evict {window : Window} (sound : window.Sound)
    (edge : Edge) {amount : Nat} (held : amount ≤ window.records.length) :
    window.Loses edge amount ((window.evict edge amount).2.bump edge) := by
  refine ⟨(sound.evict edge amount).bump edge, ?_, rfl, rfl⟩
  show (window.evict edge amount).2.records = _
  rw [sound.records_evict, Nat.min_eq_left held]

/-- Keeping the bound changes nothing unless the window holds too many records
and no request is in flight at the edge that gives way.  Then exactly the
records beyond the bound go from this edge. -/
theorem Sound.enforceBound {window : Window} (sound : window.Sound)
    (bound : Option Nat) (grown : Edge) (inFlight : Edge → Bool)
    (movement : Movement) :
    (window.enforceBound bound grown inFlight movement = (movement, window) ∧
      ∀ most, bound = some most → window.records.length ≤ most ∨
        inFlight (window.yieldingEdge grown) = true) ∨
    ∃ most after,
      bound = some most ∧ most < window.records.length ∧
      inFlight (window.yieldingEdge grown) = false ∧
      window.enforceBound bound grown inFlight movement =
        (movement.evict (window.yieldingEdge grown)
          (window.records.length - most), after) ∧
      window.Loses (window.yieldingEdge grown)
        (window.records.length - most) after := by
  cases bound with
  | none => exact .inl ⟨rfl, by simp⟩
  | some most =>
      by_cases stays : window.length ≤ most ∨
          inFlight (window.yieldingEdge grown) = true
      · refine .inl ⟨by simp [Window.enforceBound, stays], ?_⟩
        intro given equality
        cases equality
        rw [← sound.counted]
        exact stays
      · obtain ⟨exceeds, free⟩ := not_or.mp stays
        have free : inFlight (window.yieldingEdge grown) = false := by
          simpa using free
        have more : most < window.records.length := by
          rw [← sound.counted]
          exact Nat.lt_of_not_le exceeds
        have amount : window.length - most = window.records.length - most := by
          rw [sound.counted]
        have removed : (window.evict (window.yieldingEdge grown)
            (window.records.length - most)).1 =
              window.records.length - most := by
          rw [sound.evict_fst]
          exact Nat.min_eq_left (Nat.sub_le _ _)
        refine .inr ⟨most, _, rfl, more, free, ?_,
          sound.loses_evict (window.yieldingEdge grown) (Nat.sub_le _ _)⟩
        simp only [Window.enforceBound, exceeds, free, amount, removed,
          Bool.or_false, decide_false, Bool.false_eq_true, if_false,
          if_pos (Nat.sub_pos_of_lt more)]

end Window
end LogPager
