import LogPager.Proofs.Source.Intervals
import LogPager.Proofs.Window.Tailing

/-!
# Windows that hold an interval of a file

A window that holds the records of an interval of a file takes the records of
the neighbouring lines, fetched or pushed, and holds an interval again.  So it
does after oldest records were evicted.
-/

namespace LogPager.Window

theorem abuts_of_adjoins {window : Window} {data : List UInt8} {page : Page} {range : LineRange} {edge : Edge}
    (records : page.records = range.slice (fileRecords data))
    (inside : range.stop ≤ (fileRecords data).length)
    (adjoins : ∀ position, window.edge? edge = some position →
      range.Adjoins edge position) :
    ∀ received, page.facing? edge = some received →
      ∀ held, window.edge? edge = some held →
        edge.abuts held received = true := by
  intro received facing held found
  rw [Page.facing?_eq, records] at facing
  exact LineRange.abuts_slice inside (adjoins held found) facing

/-- The two hypotheses on a page under which it is merged, from what was asked
of the file. -/
private theorem joins {window : Window} (sound : window.Sound)
    {data : List UInt8} (interval : IsInterval data window.records)
    {page : Page} {range : LineRange} {edge : Edge}
    (records : page.records = range.slice (fileRecords data))
    (ordered : range.start ≤ range.stop)
    (inside : range.stop ≤ (fileRecords data).length)
    (adjoins : ∀ position, window.edge? edge = some position →
      range.Adjoins edge position) :
    (∀ received, page.facing? edge = some received →
      ∀ held, window.edge? edge = some held →
        edge.abuts held received = true) ∧
    IsInterval data (edge.put page.records window.records) := by
  refine ⟨abuts_of_adjoins records inside adjoins, ?_⟩
  rw [records]
  rw [sound.edge?_eq] at adjoins
  exact interval.put ordered inside adjoins

theorem Sound.mergeFetched_interval {window : Window} (sound : window.Sound)
    {data : List UInt8} (interval : IsInterval data window.records)
    {page : Page} {fetched : Fetched} {range : LineRange}
    (records : page.records = range.slice (fileRecords data))
    (ordered : range.start ≤ range.stop)
    (inside : range.stop ≤ (fileRecords data).length)
    (adjoins : ∀ position, window.edge? fetched.edge = some position →
      range.Adjoins fetched.edge position) :
    ∃ movement after, window.mergeFetched page fetched = .ok (movement, after) ∧
      IsInterval data after.records := by
  obtain ⟨abuts, joined⟩ :=
    joins sound interval records ordered inside adjoins
  obtain ⟨⟨movement, after⟩, merged⟩ :=
    sound.mergeFetched_of_abuts page fetched abuts
  refine ⟨movement, after, merged, ?_⟩
  rw [(sound.mergeFetched merged).records, Page.beyond_eq_records abuts]
  exact joined

theorem Sound.mergeLive_interval {window : Window} (sound : window.Sound)
    (live : window.reached.newer = true) {data : List UInt8}
    (interval : IsInterval data window.records) {page : Page}
    {range : LineRange}
    (records : page.records = range.slice (fileRecords data))
    (ordered : range.start ≤ range.stop)
    (inside : range.stop ≤ (fileRecords data).length)
    (adjoins : ∀ position, window.edge? .newer = some position →
      range.Adjoins .newer position) :
    ∃ movement after, window.mergeLive page = .ok (movement, after) ∧
      IsInterval data after.records := by
  obtain ⟨abuts, joined⟩ :=
    joins sound interval records ordered inside adjoins
  obtain ⟨⟨movement, after⟩, merged⟩ := sound.mergeLive_of_abuts page abuts
  refine ⟨movement, after, merged, ?_⟩
  rw [(sound.mergeLive live merged).records, Page.beyond_eq_records abuts]
  exact joined

theorem Tailing.enforceBound_interval {window : Window}
    (tailing : window.Tailing) {data : List UInt8}
    (interval : IsInterval data window.records) {bound : Option Nat}
    (bounded : bound ≠ some 0) (grown : Edge) (inFlight : Edge → Bool)
    (movement : Movement) :
    IsInterval data
      (window.enforceBound bound grown inFlight movement).2.records := by
  rcases tailing.enforceBound bounded grown inFlight movement with
    ⟨unchanged, _⟩ | ⟨most, after, _, _, _, _, step, loses⟩
  · rw [unchanged]
    exact interval
  · rw [step, loses.records]
    exact interval.drop _

end LogPager.Window
