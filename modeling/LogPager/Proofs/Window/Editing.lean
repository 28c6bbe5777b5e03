import LogPager.Window.Edit

/-!
# Edits that fail leave the window as it was

Every edit refuses a page before it changes anything, so it either makes of the
window what merging the page gives or leaves it alone.
-/

namespace LogPager.Window.Edit

/-- The ending of an edit by which a window becomes another one, or stays. -/
def settled (window : Window) :
    Except SpliceError (α × Window) → Except SpliceError α × Window
  | .ok (value, after) => (.ok value, after)
  | .error error => (.error error, window)

@[simp] theorem apply_pure (value : α) (window : Window) :
    (pure value : Edit α).apply window = (.ok value, window) :=
  rfl

@[simp] theorem apply_get_bind (next : Window → Edit α) (window : Window) :
    (get >>= next).apply window = (next window).apply window :=
  rfl

@[simp] theorem apply_modify_bind (change : Window → Window)
    (next : Unit → Edit α) (window : Window) :
    (modify change >>= next).apply window = (next ()).apply (change window) :=
  rfl

/-- After an edit that succeeds its window is edited further; after one that
fails nothing is. -/
theorem apply_bind (edit : Edit α) (next : α → Edit β) (window : Window) :
    (edit >>= next).apply window =
      match edit.apply window with
      | (.ok value, after) => (next value).apply after
      | (.error error, after) => (.error error, after) := by
  have opened : (edit >>= next).apply window =
      StateT.run (ExceptT.bindCont next (edit.apply window).1)
        (edit.apply window).2 := rfl
  rw [opened]
  rcases edit.apply window with ⟨error | value, after⟩
  · rfl
  · rfl

theorem apply_modify_if (condition : Prop) [Decidable condition]
    (change : Window → Window) (next : Unit → Edit α) (window : Window) :
    (if condition then modify change >>= next else next ()).apply window =
      (next ()).apply (if condition then change window else window) := by
  split <;> rfl

theorem apply_bind_of_settled {edit : Edit α} {window : Window}
    {result : Except SpliceError (α × Window)}
    (ending : edit.apply window = settled window result) {next : α → Edit β}
    {further : α × Window → Except SpliceError (β × Window)}
    (onward : ∀ value after,
      (next value).apply after = settled window (further (value, after))) :
    (edit >>= next).apply window = settled window (result >>= further) := by
  rw [apply_bind, ending]
  rcases result with error | ⟨value, after⟩
  · rfl
  · exact onward value after

theorem apply_lift_bind (result : Except SpliceError α) {next : α → Edit β}
    {further : α → Except SpliceError (β × Window)} (window : Window)
    (onward : ∀ value,
      (next value).apply window = settled window (further value)) :
    (liftM result >>= next).apply window =
      settled window (result >>= further) := by
  rw [apply_bind]
  cases result with
  | error error => rfl
  | ok value => exact onward value

theorem apply_requireAbutting (edge : Edge) (received : Nat) (window : Window) :
    (requireAbutting edge received).apply window =
      match window.edge? edge with
      | none => (.ok (), window)
      | some held =>
          if edge.abuts held received then (.ok (), window)
          else (.error (.gap edge held received), window) := by
  rw [requireAbutting, apply_get_bind]
  cases window.edge? edge with
  | none => rfl
  | some held =>
      dsimp only
      cases edge.abuts held received <;> rfl

theorem apply_append (page : Page) (edge : Edge) (window : Window) :
    (append page edge).apply window =
      settled window ((window.append page edge).map ((), ·)) := by
  unfold append Window.append
  cases page.facing? edge with
  | none => rfl
  | some received =>
      simp only [apply_bind, apply_requireAbutting]
      cases window.edge? edge with
      | none => rfl
      | some held =>
          dsimp only
          cases edge.abuts held received <;> rfl

theorem apply_fill (page : Page) (edge : Edge) (window : Window) :
    (fill page edge).apply window = settled window (window.fill page edge) := by
  rw [fill, Window.fill, apply_bind, apply_append]
  cases window.append page edge <;> rfl

theorem apply_splice (page : Page) (edge : Edge) (window : Window) :
    (splice page edge).apply window =
      settled window (window.splice page edge) := by
  unfold splice Window.splice
  rw [apply_get_bind]
  cases page.facing? edge with
  | none => rfl
  | some received =>
      cases window.edge? edge with
      | none => rfl
      | some held =>
          dsimp only
          cases edge.leavesGap held received with
          | true => rfl
          | false =>
              rw [if_neg Bool.false_ne_true, if_neg Bool.false_ne_true,
                apply_bind, apply_append]
              cases window.append (page.keepBeyond edge held) edge <;> rfl

theorem apply_mergeFetched (page : Page) (fetched : Fetched)
    (window : Window) :
    (mergeFetched page fetched).apply window =
      settled window (window.mergeFetched page fetched) := by
  unfold mergeFetched Window.mergeFetched
  rw [apply_get_bind]
  cases window.isEmpty with
  | true =>
      apply apply_bind_of_settled (apply_fill page fetched.edge window)
      intro added filled
      exact apply_modify_if (0 < added) bumpBoth _ filled
  | false =>
      apply apply_bind_of_settled (apply_splice page fetched.edge window)
      intro added grown
      exact apply_modify_if (0 < added) (·.bump fetched.edge) _ grown

theorem apply_mergeLive (page : Page) (window : Window) :
    (mergeLive page).apply window =
      settled window (window.mergeLive page) := by
  unfold mergeLive Window.mergeLive
  rw [apply_get_bind]
  cases !window.reached.newer || page.isEmpty with
  | true => rfl
  | false =>
      cases window.isEmpty with
      | true =>
          apply apply_bind_of_settled (apply_fill page .newer window)
          intro added filled
          exact apply_modify_if (0 < added) (·.bump .newer) _ filled
      | false =>
          apply apply_bind_of_settled (apply_splice page .newer window)
          intro added grown
          exact apply_modify_if (0 < added) (·.bump .newer) _ grown

end LogPager.Window.Edit
