import GraphBlock.Proofs.Number.Rounding

/-!
The grid of magnitudes of 53 significant bits. Rounding does not pass a number of the grid, and a
sum or a difference with a small enough number falls back on the number that it started from.
-/

namespace GraphBlock.Binary64

/-- A magnitude of at most 53 significant bits, however large. -/
def OnGrid (m : Nat) : Prop := 2 ^ spacing m ∣ m

theorem Representable.onGrid {m : Nat} (hm : Representable m) : OnGrid m :=
  Nat.dvd_of_mod_eq_zero hm.2

theorem two_pow_spacing_le_self {n : Nat} (h : spacing n ≠ 0) : 2 ^ (52 + spacing n) ≤ n := by
  have hlog : 52 + spacing n = n.log2 := by
    rw [spacing] at h ⊢
    omega
  rw [hlog]
  apply Nat.log2_self_le
  rintro rfl
  exact h (by decide)

theorem le_spacing {n s : Nat} (h : 2 ^ (52 + s) ≤ n) : s ≤ spacing n := by
  have hne : n ≠ 0 := by
    have := Nat.two_pow_pos (52 + s)
    omega
  have hlog := (Nat.le_log2 hne).mpr h
  rw [spacing]
  omega

theorem spacing_eq {n s : Nat} (hlow : 2 ^ (52 + s) ≤ n) (hhigh : n < 2 ^ (53 + s)) :
    spacing n = s :=
  Nat.le_antisymm (spacing_le hhigh) (le_spacing hlow)

theorem spacing_le_of_lt_mul {n s k : Nat} (h : n < 2 ^ (53 + k) * 2 ^ s) :
    spacing n ≤ s + k := by
  apply spacing_le
  rwa [Nat.add_left_comm, pow_add, Nat.mul_comm]

theorem le_spacing_of_mul_le {n s k : Nat} (h : 2 ^ (52 + k) * 2 ^ s ≤ n) :
    s + k ≤ spacing n := by
  apply le_spacing
  rwa [Nat.add_left_comm, pow_add, Nat.mul_comm]

theorem spacing_mono {m n : Nat} (h : m ≤ n) : spacing m ≤ spacing n :=
  spacing_le (Nat.lt_of_le_of_lt h (lt_two_pow_spacing n))

theorem onGrid_of_dvd {m s : Nat} (hm : m < 2 ^ (53 + s)) (h : 2 ^ s ∣ m) : OnGrid m :=
  (pow_dvd_pow 2 (spacing_le hm)).trans h

theorem onGrid_of_spacing {m s : Nat} (hm : spacing m = s) (h : 2 ^ s ∣ m) : OnGrid m := by
  rwa [OnGrid, hm]

theorem onGrid_two_pow (k : Nat) : OnGrid (2 ^ k) :=
  onGrid_of_dvd (Nat.pow_lt_pow_right (by decide) (by omega)) dvd_rfl

theorem roundRatio_of_onGrid {m : Nat} (hm : OnGrid m) : roundRatio m 1 = m := by
  have h := roundRatio_mul_self Nat.one_pos (Nat.mod_eq_zero_of_dvd hm)
  rwa [Nat.mul_one] at h

theorem spacing_mul_two_pow {q s : Nat} (hlow : 2 ^ 52 ≤ q) (hhigh : q < 2 ^ 53) :
    spacing (q * 2 ^ s) = s := by
  apply spacing_eq
  · rw [pow_add]
    exact Nat.mul_le_mul_right _ hlow
  · rw [pow_add]
    exact Nat.mul_lt_mul_of_pos_right hhigh (Nat.two_pow_pos s)

/-- Rounding at a known place: the quotient, or one more where the rest is more than half a step or
is half a step beyond an odd quotient. -/
theorem roundRatio_mul_add {q r s : Nat} (hs : spacing (q * 2 ^ s + r) = s) (hr : r < 2 ^ s) :
    roundRatio (q * 2 ^ s + r) 1 =
      if 2 * r > 2 ^ s ∨ (2 * r = 2 ^ s ∧ q % 2 = 1) then (q + 1) * 2 ^ s else q * 2 ^ s := by
  have hquot : (q * 2 ^ s + r) / 2 ^ s = q := by
    rw [Nat.mul_comm, Nat.mul_add_div (Nat.two_pow_pos s), Nat.div_eq_of_lt hr, Nat.add_zero]
  have hrest : (q * 2 ^ s + r) % 2 ^ s = r := by
    rw [Nat.mul_comm, Nat.mul_add_mod, Nat.mod_eq_of_lt hr]
  simp only [roundRatio, Nat.div_one, Nat.one_mul, hs, hquot, hrest]

theorem two_mul_le_roundRatio (n : Nat) : 2 * n ≤ 2 * roundRatio n 1 + 2 ^ spacing n := by
  have hsplit := Nat.div_add_mod' n (2 ^ spacing n)
  have hrest := Nat.mod_lt n (Nat.two_pow_pos (spacing n))
  simp only [roundRatio, Nat.div_one, Nat.one_mul]
  split
  · rw [Nat.add_mul, Nat.one_mul]
    omega
  · omega

theorem le_roundRatio {a n : Nat} (ha : OnGrid a) (h : a ≤ n) : a ≤ roundRatio n 1 := by
  have hfloor : n / 2 ^ spacing n * 2 ^ spacing n ≤ roundRatio n 1 := by
    simp only [roundRatio, Nat.div_one, Nat.one_mul]
    split
    · exact Nat.mul_le_mul_right _ (Nat.le_succ _)
    · exact le_rfl
  rcases Nat.lt_or_eq_of_le (spacing_mono h) with hlt | heq
  · -- all of the numbers with a finer last place are below those with a coarser one
    calc a ≤ 2 ^ (53 + spacing a) := (lt_two_pow_spacing a).le
      _ ≤ 2 ^ (52 + spacing n) := Nat.pow_le_pow_right (by decide) (by omega)
      _ ≤ roundRatio n 1 := two_pow_le_roundRatio Nat.one_pos (Nat.le_add_right 52 _)
        (by rw [Nat.mul_one]; exact two_pow_spacing_le_self (by omega))
  · rw [OnGrid, heq] at ha
    calc a = a / 2 ^ spacing n * 2 ^ spacing n := (Nat.div_mul_cancel ha).symm
      _ ≤ n / 2 ^ spacing n * 2 ^ spacing n := Nat.mul_le_mul_right _ (Nat.div_le_div_right h)
      _ ≤ roundRatio n 1 := hfloor

theorem roundRatio_le {a n : Nat} (ha : OnGrid a) (h : n ≤ a) : roundRatio n 1 ≤ a := by
  have hsplit := Nat.div_add_mod' n (2 ^ spacing n)
  obtain ⟨c, hc⟩ : 2 ^ spacing n ∣ a := (pow_dvd_pow 2 (spacing_mono h)).trans ha
  have hstep := Nat.two_pow_pos (spacing n)
  simp only [roundRatio, Nat.div_one, Nat.one_mul]
  split
  · next hup =>
    have hlt : n / 2 ^ spacing n * 2 ^ spacing n < c * 2 ^ spacing n := by
      rw [Nat.mul_comm c, ← hc]
      omega
    rw [hc, Nat.mul_comm _ c]
    exact Nat.mul_le_mul_right _ (Nat.lt_of_mul_lt_mul_right hlt)
  · omega

theorem OnGrid.exists_mul {m : Nat} (hm : OnGrid m) (h : spacing m ≠ 0) :
    ∃ q, m = q * 2 ^ spacing m ∧ 2 ^ 52 ≤ q ∧ q < 2 ^ 53 := by
  obtain ⟨q, hq⟩ := hm
  rw [Nat.mul_comm] at hq
  refine ⟨q, hq, ?_, ?_⟩
  · have hlow := two_pow_spacing_le_self h
    rw [pow_add] at hlow
    exact Nat.le_of_mul_le_mul_right (hlow.trans hq.le) (Nat.two_pow_pos _)
  · have hhigh := lt_two_pow_spacing m
    rw [pow_add] at hhigh
    exact Nat.lt_of_mul_lt_mul_right (hq.symm.le.trans_lt hhigh)

theorem OnGrid.add_step_le {m : Nat} (hm : OnGrid m) (h : spacing m ≠ 0) :
    m + 2 ^ spacing m ≤ 2 ^ (53 + spacing m) := by
  obtain ⟨q, hq, -, hlast⟩ := hm.exists_mul h
  rw [pow_add]
  calc m + 2 ^ spacing m = (q + 1) * 2 ^ spacing m := by rw [Nat.add_one_mul, ← hq]
    _ ≤ 2 ^ 53 * 2 ^ spacing m := Nat.mul_le_mul_right _ hlast

/-- What is added is lost where it is less than half a step; half a step takes an odd number up. -/
theorem roundRatio_add {m c : Nat} (hm : OnGrid m) (hc : 2 * c ≤ 2 ^ spacing m) :
    roundRatio (m + c) 1 =
      if 2 * c = 2 ^ spacing m ∧ m / 2 ^ spacing m % 2 = 1 then m + 2 ^ spacing m else m := by
  by_cases hzero : spacing m = 0
  · have hnone : c = 0 := by
      rw [hzero] at hc
      omega
    rw [hnone, Nat.add_zero, roundRatio_of_onGrid hm, hzero, if_neg (by omega)]
  · obtain ⟨q, hq, hlow, hhigh⟩ := hm.exists_mul hzero
    generalize spacing m = s at hc hq
    subst hq
    have hstep := Nat.two_pow_pos s
    have hend : (q + 1) * 2 ^ s ≤ 2 ^ (53 + s) := by
      rw [pow_add]
      exact Nat.mul_le_mul_right _ hhigh
    have hbegin : 2 ^ (52 + s) ≤ q * 2 ^ s := by
      rw [pow_add]
      exact Nat.mul_le_mul_right _ hlow
    rw [Nat.add_mul, Nat.one_mul] at hend
    have hspacing : spacing (q * 2 ^ s + c) = s := spacing_eq (by omega) (by omega)
    rw [roundRatio_mul_add hspacing (by omega), Nat.mul_div_cancel _ hstep, Nat.add_mul,
      Nat.one_mul]
    have hnot : ¬ 2 * c > 2 ^ s := by omega
    simp only [hnot, false_or]

/-- Just below a number with a given step, less than half of the step is lost, and half of it where
the number below is odd. -/
theorem roundRatio_below {q s c : Nat} (hlow : 2 ^ 52 ≤ q) (hhigh : q < 2 ^ 53) (hpos : 0 < c)
    (hc : 2 * c < 2 ^ s ∨ (2 * c = 2 ^ s ∧ q % 2 = 1)) :
    roundRatio ((q + 1) * 2 ^ s - c) 1 = (q + 1) * 2 ^ s := by
  have hbegin : 2 ^ (52 + s) ≤ q * 2 ^ s := by
    rw [pow_add]
    exact Nat.mul_le_mul_right _ hlow
  have hend : (q + 1) * 2 ^ s ≤ 2 ^ (53 + s) := by
    rw [pow_add]
    exact Nat.mul_le_mul_right _ hhigh
  have hsplit : (q + 1) * 2 ^ s - c = q * 2 ^ s + (2 ^ s - c) := by
    rw [Nat.add_mul, Nat.one_mul]
    omega
  have hspacing : spacing ((q + 1) * 2 ^ s - c) = s := by
    rw [Nat.add_mul, Nat.one_mul] at hend ⊢
    exact spacing_eq (by omega) (by omega)
  rw [hsplit] at hspacing ⊢
  rw [roundRatio_mul_add hspacing (by omega), if_pos (by omega)]

theorem roundRatio_sub {m c : Nat} (hm : OnGrid m) (hc : 4 * c ≤ 2 ^ spacing m) :
    roundRatio (m - c) 1 = m := by
  by_cases hzero : c = 0
  · rw [hzero, Nat.sub_zero, roundRatio_of_onGrid hm]
  · have hcoarse : spacing m ≠ 0 := by
      intro h
      rw [h] at hc
      omega
    obtain ⟨q, hq, hlow, hhigh⟩ := hm.exists_mul hcoarse
    obtain ⟨s, hs⟩ := Nat.exists_eq_add_one_of_ne_zero hcoarse
    rw [hs] at hc hq
    rcases Nat.lt_or_eq_of_le hlow with hinside | hfirst
    · obtain ⟨p, rfl⟩ := Nat.exists_eq_add_one_of_ne_zero (n := q) (by omega)
      rw [hq]
      exact roundRatio_below (by omega) (by omega) (by omega) (by omega)
    · have hpower : m = (2 ^ 53 - 1 + 1) * 2 ^ s := by
        rw [hq, ← hfirst, pow_succ]
        omega
      rw [pow_succ] at hc
      rw [hpower]
      exact roundRatio_below (by omega) (by omega) (by omega) (by omega)

end GraphBlock.Binary64
