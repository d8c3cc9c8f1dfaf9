import GraphBlock.Text.Character

namespace GraphBlock.Text

theorem isLower_iff {c : Char} :
    'a'.val ≤ c.val ∧ c.val ≤ 'z'.val ↔ 97 ≤ c.toNat ∧ c.toNat ≤ 122 := by
  rw [UInt32.le_iff_toNat_le, UInt32.le_iff_toNat_le]
  rfl

theorem isUpper_toUpper {c : Char} (h : c.toUpper ≠ c) : c.toUpper.isUpper = true := by
  unfold Char.toUpper at h ⊢
  split
  · next hlower =>
    have hrange := isLower_iff.mp hlower
    have hsum : (c.val + ('A'.val - 'a'.val)).toNat = c.toNat - 32 := by
      rw [UInt32.toNat_add]
      change (c.toNat + 4294967264) % 4294967296 = c.toNat - 32
      omega
    refine decide_eq_true ?_
    rw [ge_iff_le, UInt32.le_iff_toNat_le, UInt32.le_iff_toNat_le, hsum]
    change 65 ≤ c.toNat - 32 ∧ c.toNat - 32 ≤ 90
    omega
  · next hlower => exact absurd (dif_neg hlower) h

theorem eq_or_isUpper_of_mem_upperChar {x c : Char} (h : x ∈ upperChar c) :
    x = c ∨ x.isUpper = true := by
  rw [upperChar.eq_def] at h
  revert x
  split
  -- ten characters whose upper case is a word of ASCII letters, and all the others
  iterate 10 decide
  intro x hx
  rw [List.mem_singleton.mp hx]
  by_cases heq : c.toUpper = c
  · exact .inl heq
  · exact .inr (isUpper_toUpper heq)

variable {x : Char} {t : Text}

theorem mem_of_mem_upper (hx : x.isUpper = false) (h : x ∈ upper t) : x ∈ t := by
  obtain ⟨c, hc, hxc⟩ := List.mem_flatMap.mp h
  rcases eq_or_isUpper_of_mem_upperChar hxc with heq | hupper
  · exact heq ▸ hc
  · rw [hupper] at hx
    cases hx

theorem mem_upper_of_mem (hx : upperChar x = [x]) (h : x ∈ t) : x ∈ upper t :=
  List.mem_flatMap.mpr ⟨x, h, by rw [hx]; exact List.mem_cons_self⟩

end GraphBlock.Text
