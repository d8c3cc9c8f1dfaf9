import GraphBlock.Proofs.Text.Upper
import GraphBlock.Text.Character
import GraphBlock.Text.Pieces

namespace GraphBlock.Text

theorem not_isBlank_of_toNat {c : Char} (hlow : 33 ≤ c.toNat) (hhigh : c.toNat < 133) :
    isBlank c = false := by
  simp only [isBlank, Bool.or_eq_false_iff, Bool.and_eq_false_iff, decide_eq_false_iff_not,
    beq_eq_false_iff_ne, ne_eq]
  omega

theorem isBlank_of_isLineBreak {c : Char} (h : isLineBreak c = true) : isBlank c = true := by
  simp only [isLineBreak, Bool.or_eq_true, Bool.and_eq_true, decide_eq_true_eq, beq_iff_eq] at h
  simp only [isBlank, Bool.or_eq_true, Bool.and_eq_true, decide_eq_true_eq, beq_iff_eq]
  omega

theorem not_isLineBreak {c : Char} (h : isBlank c = false) : isLineBreak c = false := by
  cases hc : isLineBreak c with
  | false => rfl
  | true =>
    rw [isBlank_of_isLineBreak hc] at h
    cases h

theorem toNat_of_isAlphanum {c : Char} (h : c.isAlphanum = true) :
    48 ≤ c.toNat ∧ c.toNat ≤ 122 := by
  change ((decide (65 ≤ c.val ∧ c.val ≤ 90) || (97 ≤ c.val && c.val ≤ 122)) ||
    (48 ≤ c.val && c.val ≤ 57)) = true at h
  simp only [Bool.or_eq_true, Bool.and_eq_true, decide_eq_true_eq,
    UInt32.le_iff_toNat_le] at h
  change ((65 ≤ c.toNat ∧ c.toNat ≤ 90) ∨ (97 ≤ c.toNat ∧ c.toNat ≤ 122)) ∨
    (48 ≤ c.toNat ∧ c.toNat ≤ 57) at h
  omega

theorem toLower_of_isBlank {c : Char} (h : isBlank c = true) : c.toLower = c := by
  apply dif_neg
  intro hupper
  obtain ⟨hlow, hhigh⟩ := hupper
  rw [ge_iff_le, UInt32.le_iff_toNat_le] at hlow
  rw [UInt32.le_iff_toNat_le] at hhigh
  change 65 ≤ c.toNat at hlow
  change c.toNat ≤ 90 at hhigh
  rw [not_isBlank_of_toNat (by omega) (by omega)] at h
  cases h

theorem toUpper_of_isBlank {c : Char} (h : isBlank c = true) : c.toUpper = c := by
  apply dif_neg
  intro hlower
  have hrange := isLower_iff.mp hlower
  rw [not_isBlank_of_toNat (by omega) (by omega)] at h
  cases h

theorem upperChar_of_isBlank {c : Char} (h : isBlank c = true) : upperChar c = [c] := by
  rw [upperChar.eq_def]
  split <;> first | cases h | rw [toUpper_of_isBlank h]

theorem not_isBlank_of_digitValue? {c : Char} {d : Nat} (h : digitValue? c = some d) :
    isBlank c = false := by
  have hdigits : ∀ start ∈ digitZeros, ∀ i < 10, isBlank (Char.ofNat (start + i)) = false := by
    decide +kernel
  obtain ⟨start, hfind, -⟩ := Option.map_eq_some_iff.mp h
  have hrange := List.find?_some hfind
  simp only [Bool.and_eq_true, decide_eq_true_eq] at hrange
  have := hdigits start (List.mem_of_find?_eq_some hfind) (c.toNat - start) (by omega)
  rwa [Nat.add_sub_cancel' hrange.1, Char.ofNat_toNat] at this

end GraphBlock.Text
