import LogPager.Edge
import LogPager.Record.Basic

/-!
# Pages of records

A page is a run of records of one file with growing positions, as a source
delivers it.  Its end that faces a window decides whether it can be joined to
that edge of the window.
-/

namespace LogPager

/-- Why records cannot be joined to a window. -/
inductive SpliceError where
  /-- Positions between the held edge and the received end are missing. -/
  | gap (edge : Edge) (held received : Nat)
  /-- The record at the position does not follow the one before it. -/
  | unordered (position : Nat)
deriving DecidableEq, Repr

def SpliceError.message : SpliceError → String
  | .gap edge held received =>
      "chunk for " ++ edge.name ++ " edge starts at " ++ toString received ++
        ", buffer edge is " ++ toString held
  | .unordered position =>
      "chunk records out of order at position " ++ toString position

/-- The order of records by position. -/
def Record.Before (left right : Record) : Prop :=
  left.position < right.position

/-- Records of one file in the order of their positions. -/
structure Page where
  file : String
  records : List Record
  ordered : records.Pairwise Record.Before
deriving Repr

namespace Page

/-- The first position that is not beyond the one before it. -/
def firstUnordered? : List Record → Option Nat
  | first :: second :: rest =>
      if second.position ≤ first.position then some second.position
      else firstUnordered? (second :: rest)
  | _ => none

theorem ordered_of_firstUnordered?_eq_none {records : List Record}
    (growing : firstUnordered? records = none) :
    records.Pairwise Record.Before := by
  fun_induction firstUnordered? records with
  | case1 first second rest unordered => cases growing
  | case2 first second rest step ih =>
      have tail := ih growing
      refine List.pairwise_cons.mpr ⟨?_, tail⟩
      intro record member
      rcases List.mem_cons.mp member with rfl | later
      · exact Nat.lt_of_not_le step
      · exact Nat.lt_trans (Nat.lt_of_not_le step)
          (List.rel_of_pairwise_cons tail later)
  | case3 records short =>
      match records, short with
      | [], _ => exact .nil
      | [_], _ => exact List.pairwise_singleton _ _
      | first :: second :: rest, short => exact (short first second rest rfl).elim

/-- A page of the given records, unless one of them is out of order. -/
def ofRecords (file : String) (records : List Record) :
    Except SpliceError Page :=
  match growing : firstUnordered? records with
  | some position => .error (.unordered position)
  | none =>
      .ok { file, records, ordered := ordered_of_firstUnordered?_eq_none growing }

def length (page : Page) : Nat :=
  page.records.length

def isEmpty (page : Page) : Bool :=
  page.records.isEmpty

def first? (page : Page) : Option Nat :=
  page.records.head?.map (·.position)

def last? (page : Page) : Option Nat :=
  page.records.getLast?.map (·.position)

/-- Position of the record that faces a window when the page comes to the
given edge of it. -/
def facing? (page : Page) : Edge → Option Nat
  | .older => page.last?
  | .newer => page.first?

def keepBefore (page : Page) (position : Nat) : Page where
  file := page.file
  records := page.records.takeWhile (·.position < position)
  ordered := page.ordered.sublist (List.takeWhile_sublist _)

def keepAfter (page : Page) (position : Nat) : Page where
  file := page.file
  records := page.records.dropWhile (·.position ≤ position)
  ordered := page.ordered.sublist (List.dropWhile_sublist _)

/-- The records beyond the position held at an edge. -/
def keepBeyond (page : Page) (edge : Edge) (held : Nat) : Page :=
  match edge with
  | .older => page.keepBefore held
  | .newer => page.keepAfter held

end Page

namespace Edge

/-- The received position is the next one beyond the held position. -/
def abuts (edge : Edge) (held received : Nat) : Bool :=
  match edge with
  | older => received + 1 == held
  | newer => held + 1 == received

/-- Positions lie between the held and the received one. -/
def leavesGap (edge : Edge) (held received : Nat) : Bool :=
  match edge with
  | older => received + 1 < held
  | newer => held + 1 < received

end Edge
end LogPager
