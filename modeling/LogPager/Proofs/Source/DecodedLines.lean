import LogPager.Proofs.Source.CompleteLines
import LogPager.Text.Lines
import LogPager.Text.Utf8

/-!
# Decoding lines together or alone

No byte of a longer UTF-8 sequence and no character decoded from one is a
newline, and a newline ends whatever sequence was begun.  Decoding the bytes of
several lines and splitting the text therefore gives the same lines as decoding
each of them alone, whether or not their bytes are UTF-8.
-/

namespace LogPager
namespace Text

namespace Utf8

theorem ofNat_ne_newline {code : Nat} (other : code ≠ 10) :
    Char.ofNat code ≠ '\n' := by
  intro same
  by_cases valid : code.isValidChar
  · rw [Char.ofNat, dif_pos valid] at same
    exact other (congrArg Char.toNat same)
  · rw [Char.ofNat, dif_neg valid] at same
    cases same

/-- A sequence that was begun takes no ASCII byte and becomes no ASCII
character: its code is at least two before the last byte is read. -/
def Pending.Beyond : Pending → Prop
  | .nothing => True
  | .sequence code missing least _ =>
      0x80 ≤ least.toNat ∧
        (2 ≤ code ∨ (2 ≤ missing ∧ 2 ≤ 64 * code + (least.toNat - 0x80)))

theorem opening_beyond (byte : UInt8) : (opening byte).2.Beyond := by
  unfold opening
  simp only [UInt8.lt_iff_toNat_lt, ← UInt8.toNat_inj]
  split
  · trivial
  · split
    · trivial
    · split
      · simp only [Pending.Beyond, UInt8.reduceToNat] at *
        omega
      · split
        · simp only [Pending.Beyond, UInt8.reduceToNat] at *
          split <;> simp only [UInt8.reduceToNat] <;> omega
        · split
          · simp only [Pending.Beyond, UInt8.reduceToNat] at *
            split <;> simp only [UInt8.reduceToNat] <;> omega
          · trivial

theorem Pending.Beyond.step {pending : Pending} (beyond : pending.Beyond)
    (byte : UInt8) : (step pending byte).2.Beyond := by
  cases pending with
  | nothing => exact opening_beyond byte
  | sequence code missing least greatest =>
      obtain ⟨_, reaches⟩ := beyond
      rw [Utf8.step]
      split
      · rename_i within
        have above := UInt8.le_iff_toNat_le.mp within.1
        split
        · trivial
        · refine ⟨by simp, .inl ?_⟩
          omega
      · exact opening_beyond byte

/-- A newline ends what was begun and stands for itself. -/
theorem Pending.Beyond.step_newline {pending : Pending}
    (beyond : pending.Beyond) :
    Utf8.step pending newline = (pending.finish ++ ['\n'], .nothing) := by
  cases pending with
  | nothing => rfl
  | sequence code missing least greatest =>
      have outside : ¬(least ≤ newline ∧ newline ≤ greatest) := by
        rintro ⟨below, _⟩
        have least := UInt8.le_iff_toNat_le.mp below
        have ascii : newline.toNat = 10 := rfl
        have above := beyond.1
        omega
      rw [Utf8.step, if_neg outside]
      rfl

private theorem newline_not_mem_opening {byte : UInt8}
    (other : byte ≠ newline) : '\n' ∉ (opening byte).1 := by
  have different : byte.toNat ≠ 10 := by
    intro same
    exact other (UInt8.toNat_inj.mp same)
  unfold opening
  split
  · simpa using (ofNat_ne_newline different).symm
  · split
    · decide
    · split
      · simp
      · split
        · simp
        · split
          · simp
          · decide

theorem Pending.Beyond.newline_not_mem_step {pending : Pending}
    (beyond : pending.Beyond) {byte : UInt8} (other : byte ≠ newline) :
    '\n' ∉ (Utf8.step pending byte).1 := by
  cases pending with
  | nothing => exact newline_not_mem_opening other
  | sequence code missing least greatest =>
      obtain ⟨_, reaches⟩ := beyond
      rw [Utf8.step]
      split
      · split
        · have high : 64 * code + (byte.toNat - 0x80) ≠ 10 := by omega
          simpa using (ofNat_ne_newline high).symm
        · simp
      · have opened := newline_not_mem_opening other
        intro member
        rcases List.mem_cons.mp member with same | inside
        · exact absurd same (by decide)
        · exact opened inside

theorem run_eq (decoded : List Char) (pending : Pending) (bytes : List UInt8) :
    run decoded pending bytes = decoded.reverse ++ run [] pending bytes := by
  induction bytes generalizing decoded pending with
  | nil => simp [run]
  | cons byte rest ih =>
      have next := ih ((step pending byte).1.reverse ++ decoded)
        (step pending byte).2
      have first := ih ((step pending byte).1.reverse ++ [])
        (step pending byte).2
      simp only [run, next, first]
      simp

theorem run_cons (pending : Pending) (byte : UInt8) (rest : List UInt8) :
    run [] pending (byte :: rest) =
      (step pending byte).1 ++ run [] (step pending byte).2 rest := by
  show run ((step pending byte).1.reverse ++ []) (step pending byte).2 rest = _
  rw [run_eq, List.append_nil, List.reverse_reverse]

theorem run_append_newline {pending : Pending} (beyond : pending.Beyond)
    (before after : List UInt8) :
    run [] pending (before ++ newline :: after) =
      run [] pending before ++ '\n' :: decodeLossy after := by
  induction before generalizing pending with
  | nil =>
      rw [List.nil_append, run_cons, beyond.step_newline]
      simp [run, decodeLossy]
  | cons byte before ih =>
      rw [List.cons_append, run_cons, run_cons, ih (beyond.step byte),
        List.append_assoc]

theorem decodeLossy_append_newline (before after : List UInt8) :
    decodeLossy (before ++ newline :: after) =
      decodeLossy before ++ '\n' :: decodeLossy after := by
  have nothing : Pending.nothing.Beyond := trivial
  exact run_append_newline nothing before after

theorem newline_not_mem_decodeLossy {bytes : List UInt8}
    (free : newline ∉ bytes) : '\n' ∉ decodeLossy bytes := by
  have general : ∀ pending : Pending, pending.Beyond →
      '\n' ∉ run [] pending bytes := by
    induction bytes with
    | nil =>
        intro pending _
        cases pending <;> simp [run, Pending.finish, replacement]
    | cons byte rest ih =>
        intro pending beyond
        obtain ⟨different, freeRest⟩ := List.ne_and_not_mem_of_not_mem_cons free
        have here := beyond.newline_not_mem_step different.symm
        have later := ih freeRest _ (beyond.step byte)
        rw [run_cons, List.mem_append]
        exact not_or.mpr ⟨here, later⟩
  exact general .nothing trivial

end Utf8

theorem splitLines_append_newline (done : List (List Char)) (line : List Char)
    {text : List Char} (free : '\n' ∉ text) (rest : List Char) :
    splitLines done line (text ++ '\n' :: rest) =
      splitLines ((line.reverse ++ text) :: done) [] rest := by
  induction text generalizing line with
  | nil => simp [splitLines]
  | cons character text ih =>
      obtain ⟨different, freeText⟩ := List.ne_and_not_mem_of_not_mem_cons free
      rw [List.cons_append, splitLines, if_neg different.symm, ih _ freeText]
      simp

private theorem splitLines_decodeLossy (done : List (List Char))
    {lines : List (List UInt8)} (whole : ∀ line ∈ lines, newline ∉ line) :
    splitLines done [] (Utf8.decodeLossy (bytesOfLines lines)) =
      done.reverse ++ lines.map Utf8.decodeLossy := by
  induction lines generalizing done with
  | nil => simp [Utf8.decodeLossy, Utf8.run, Utf8.Pending.finish, splitLines]
  | cons line lines ih =>
      have free := Utf8.newline_not_mem_decodeLossy
        (whole line List.mem_cons_self)
      have others : ∀ other ∈ lines, newline ∉ other := fun other member =>
        whole other (List.mem_cons_of_mem _ member)
      rw [bytesOfLines_cons, Utf8.decodeLossy_append_newline,
        splitLines_append_newline _ _ free, ih _ others]
      simp

/-- The text of several lines has as lines the texts of each of them. -/
theorem lines_decodeLossy {lines : List (List UInt8)}
    (whole : ∀ line ∈ lines, newline ∉ line) :
    Text.lines (Utf8.decodeLossy (bytesOfLines lines)) =
      lines.map Utf8.decodeLossy :=
  splitLines_decodeLossy [] whole

end Text
end LogPager
