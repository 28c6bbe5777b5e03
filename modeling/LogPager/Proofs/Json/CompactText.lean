import LogPager.Json.Value

/-!
# Compact texts have no control characters

Inside the strings of a compact text every control character is escaped, and
outside of them there is none.  So a compact text stands on one line, whatever
its value.
-/

namespace LogPager

namespace Text

/-- None of the characters is a control character. -/
def Uncontrolled (text : List Char) : Prop :=
  ∀ character ∈ text, 0x20 ≤ character.toNat

instance (text : List Char) : Decidable (Uncontrolled text) :=
  List.decidableBAll (fun character : Char => 0x20 ≤ character.toNat) text

@[simp] theorem uncontrolled_nil : Uncontrolled [] := nofun

@[simp] theorem uncontrolled_cons {first : Char} {rest : List Char} :
    Uncontrolled (first :: rest) ↔ 0x20 ≤ first.toNat ∧ Uncontrolled rest :=
  List.forall_mem_cons

@[simp] theorem uncontrolled_append {left right : List Char} :
    Uncontrolled (left ++ right) ↔ Uncontrolled left ∧ Uncontrolled right :=
  List.forall_mem_append

theorem uncontrolled_between {first last : Char} {inside : List Char}
    (begins : 0x20 ≤ first.toNat) (ends : 0x20 ≤ last.toNat)
    (middle : Uncontrolled inside) : Uncontrolled (first :: inside ++ [last]) := by
  rw [List.cons_append, uncontrolled_cons, uncontrolled_append]
  exact ⟨begins, middle, uncontrolled_cons.mpr ⟨ends, uncontrolled_nil⟩⟩

theorem Uncontrolled.newline_not_mem {text : List Char}
    (uncontrolled : Uncontrolled text) : '\n' ∉ text := fun member =>
  absurd (uncontrolled '\n' member) (by decide)

theorem uncontrolled_toDigits (value : Nat) :
    Uncontrolled (Nat.toDigits 10 value) := by
  intro digit member
  have isDigit := Nat.isDigit_of_mem_toDigits (by decide) (by decide) member
  obtain ⟨low, _⟩ := Char.isDigit_iff_toNat.mp isDigit
  exact Nat.le_trans (by decide) low

end Text

namespace Decimal

open Text

theorem uncontrolled_zeros (count : Nat) : Uncontrolled (zeros count) := by
  intro digit member
  rw [List.eq_of_mem_replicate member]
  decide

theorem uncontrolled_positional {digits : List Char}
    (written : Uncontrolled digits) (exponent : Int) :
    Uncontrolled (positional digits exponent) := by
  have padded (count : Nat) : Uncontrolled (digits ++ zeros count) :=
    uncontrolled_append.mpr ⟨written, uncontrolled_zeros count⟩
  unfold positional
  split
  · simp only [List.cons_append, uncontrolled_cons, uncontrolled_append]
    exact ⟨by decide, by decide, uncontrolled_zeros _, written⟩
  · rw [uncontrolled_append, uncontrolled_cons]
    refine ⟨fun digit member => padded _ digit (List.mem_of_mem_take member),
      by decide, ?_⟩
    split
    · decide
    · exact fun digit member => padded _ digit (List.mem_of_mem_drop member)

theorem uncontrolled_scientific {digits : List Char}
    (written : Uncontrolled digits) (exponent : Int) :
    Uncontrolled (scientific digits exponent) := by
  unfold scientific
  rw [uncontrolled_append, uncontrolled_cons, uncontrolled_cons]
  refine ⟨?_, by decide, ?_, uncontrolled_toDigits _⟩
  · split
    · rw [uncontrolled_cons] at written
      exact uncontrolled_cons.mpr
        ⟨written.1, uncontrolled_cons.mpr ⟨by decide, written.2⟩⟩
    · exact written
  · split <;> decide

theorem uncontrolled_render (layout : Layout) (value : Float) :
    Uncontrolled (render layout value) := by
  have scaled (number : Scaled) : Uncontrolled (number.render layout) := by
    have digits := uncontrolled_toDigits number.digits
    simp only [Scaled.render]
    split
    · exact uncontrolled_positional digits _
    · exact uncontrolled_scientific digits _
  unfold render
  extract_lets magnitude
  have unsigned : Uncontrolled magnitude := by
    unfold magnitude
    split
    · exact uncontrolled_nil
    · split
      · decide
      · exact scaled _
  split
  · exact uncontrolled_cons.mpr ⟨by decide, unsigned⟩
  · exact unsigned

end Decimal

namespace Json

open Text

theorem uncontrolled_hexDigit {value : Nat} (small : value < 0x10) :
    0x20 ≤ (hexDigit value).toNat := by
  have digits : ∀ digit < 0x10, 0x20 ≤ (hexDigit digit).toNat := by decide
  exact digits value small

theorem uncontrolled_escapeCharacter (character : Char) :
    Uncontrolled (escapeCharacter character) := by
  fun_cases escapeCharacter character with
  | case8 character control =>
      simp only [if_pos control, uncontrolled_cons, uncontrolled_nil, and_true]
      exact ⟨by decide, by decide, by decide, by decide,
        uncontrolled_hexDigit (by omega), uncontrolled_hexDigit (by omega)⟩
  | case9 character printed =>
      rw [if_neg printed]
      exact uncontrolled_cons.mpr ⟨Nat.le_of_not_lt printed, uncontrolled_nil⟩
  | case1 | case2 | case3 | case4 | case5 | case6 | case7 => decide

theorem uncontrolled_quote (text : List Char) : Uncontrolled (quote text) := by
  apply uncontrolled_between (by decide) (by decide)
  intro character member
  obtain ⟨_, _, written⟩ := List.mem_flatMap.mp member
  exact uncontrolled_escapeCharacter _ character written

theorem uncontrolled_renderInteger (value : Int) :
    Uncontrolled (renderInteger value) := by
  cases value with
  | ofNat value => exact uncontrolled_toDigits value
  | negSucc value =>
      exact uncontrolled_cons.mpr ⟨by decide, uncontrolled_toDigits _⟩

theorem uncontrolled_commaSeparated {texts : List (List Char)}
    (each : ∀ text ∈ texts, Uncontrolled text) :
    Uncontrolled (commaSeparated texts) := by
  induction texts with
  | nil => exact uncontrolled_nil
  | cons first rest ih =>
      obtain ⟨begins, others⟩ := List.forall_mem_cons.mp each
      cases rest with
      | nil => exact begins
      | cons second more =>
          have separated : commaSeparated (first :: second :: more) =
            first ++ ',' :: commaSeparated (second :: more) := rfl
          rw [separated, uncontrolled_append, uncontrolled_cons]
          exact ⟨begins, by decide, ih others⟩

theorem uncontrolled_bracketed {items : List (List Char)}
    (each : ∀ item ∈ items, Uncontrolled item) :
    Uncontrolled (bracketed items) :=
  uncontrolled_between (by decide) (by decide) (uncontrolled_commaSeparated each)

theorem uncontrolled_braced {members : List (List Char)}
    (each : ∀ member ∈ members, Uncontrolled member) :
    Uncontrolled (braced members) :=
  uncontrolled_between (by decide) (by decide) (uncontrolled_commaSeparated each)

namespace Value

mutual

/-- The compact text of a value has no control characters. -/
theorem uncontrolled_compact (value : Value) : Uncontrolled value.compact := by
  cases value with
  | null => decide
  | bool value =>
      cases value with
      | false => decide
      | true => decide
  | integer value =>
      rw [compact]
      exact uncontrolled_renderInteger value
  | double value =>
      rw [compact]
      exact Decimal.uncontrolled_render _ value
  | string text =>
      rw [compact]
      exact uncontrolled_quote text
  | array items =>
      rw [compact]
      exact uncontrolled_bracketed (uncontrolled_compactItems items)
  | object members =>
      rw [compact]
      exact uncontrolled_braced (uncontrolled_compactMembers members)

theorem uncontrolled_compactItems (items : List Value) :
    ∀ text ∈ compactItems items, Uncontrolled text := by
  cases items with
  | nil => nofun
  | cons item rest =>
      rw [compactItems, List.forall_mem_cons]
      exact ⟨uncontrolled_compact item, uncontrolled_compactItems rest⟩

theorem uncontrolled_compactMembers (members : List (List Char × Value)) :
    ∀ text ∈ compactMembers members, Uncontrolled text := by
  match members with
  | [] => nofun
  | (key, value) :: rest =>
      rw [compactMembers, List.forall_mem_cons]
      refine ⟨?_, uncontrolled_compactMembers rest⟩
      rw [keyed, uncontrolled_append, uncontrolled_cons]
      exact ⟨uncontrolled_quote key, by decide, uncontrolled_compact value⟩

end

end Value
end Json
end LogPager
