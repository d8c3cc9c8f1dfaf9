import GraphBlock.Proofs.Number.Sum
import Mathlib.Algebra.Ring.Int.Parity
import Mathlib.Data.Rat.Floor
import Mathlib.Tactic.FieldSimp

/-!
Rounding half up by adding one half and taking the floor. The sum is itself rounded, and for a few
numbers that takes it into the next unit: the number just below one half, and odd integers whose
last place is that of the units. For all others the result is that of exact arithmetic.
-/

namespace GraphBlock.Binary64

section Half

variable {j m : Nat}

theorem roundRatio_add_half_below (h : m + 2 ^ j = 2 ^ 53 * 2 ^ j) :
    roundRatio (m + 2 ^ 53 * 2 ^ j) 1 = 2 ^ 54 * 2 ^ j := by
  have hone : (2 ^ 53 - 1 + 1) * 2 ^ (j + 1) = 2 ^ 54 * 2 ^ j := by
    rw [pow_succ]
    omega
  have hsum : m + 2 ^ 53 * 2 ^ j = (2 ^ 53 - 1 + 1) * 2 ^ (j + 1) - 2 ^ j := by omega
  rw [hsum, roundRatio_below (by decide) (by decide) (Nat.two_pow_pos j) (by omega), hone]

theorem add_step_le_half (hm : OnGrid m) (hlt : m < 2 ^ 53 * 2 ^ j)
    (hne : m + 2 ^ j ≠ 2 ^ 53 * 2 ^ j) : m + 2 * 2 ^ j ≤ 2 ^ 53 * 2 ^ j := by
  rcases Nat.lt_or_ge m (2 ^ 52 * 2 ^ j) with hsmall | hlarge
  · omega
  · have hspacing : spacing m = j :=
      Nat.le_antisymm (spacing_le_of_lt_mul (k := 0) hlt) (le_spacing_of_mul_le (k := 0) hlarge)
    obtain ⟨q, hq⟩ := hm
    rw [hspacing, Nat.mul_comm] at hq
    rw [hq, ← Nat.add_one_mul, ne_eq, Nat.mul_left_inj (Nat.two_pow_pos j).ne'] at hne
    rw [hq] at hlt
    have hbelow := Nat.lt_of_mul_lt_mul_right hlt
    rw [hq, ← Nat.add_mul]
    exact Nat.mul_le_mul_right _ (by omega)

theorem roundRatio_add_half_lt (hm : OnGrid m) (hlt : m < 2 ^ 53 * 2 ^ j)
    (hne : m + 2 ^ j ≠ 2 ^ 53 * 2 ^ j) : roundRatio (m + 2 ^ 53 * 2 ^ j) 1 < 2 ^ 54 * 2 ^ j := by
  have hpos := Nat.two_pow_pos j
  have hstep : 2 ^ (j + 1) = 2 * 2 ^ j := pow_succ' 2 j
  have hgrid : OnGrid ((2 ^ 53 - 1) * 2 ^ (j + 1)) := by
    apply onGrid_of_dvd (s := j + 1) _ (Nat.dvd_mul_left _ _)
    rw [pow_add 2 53]
    exact Nat.mul_lt_mul_of_pos_right (by decide) (Nat.two_pow_pos _)
  have hgap := add_step_le_half hm hlt hne
  have hround := roundRatio_le hgrid (n := m + 2 ^ 53 * 2 ^ j) (by omega)
  omega

theorem floor_add_half_middle (hm : OnGrid m) (hlow : 2 ^ 53 * 2 ^ j ≤ m)
    (hhigh : m < 2 ^ 106 * 2 ^ j) :
    roundRatio (m + 2 ^ 53 * 2 ^ j) 1 / (2 ^ 54 * 2 ^ j) =
      (m + 2 ^ 53 * 2 ^ j) / (2 ^ 54 * 2 ^ j) := by
  have hpos := Nat.two_pow_pos j
  have hfine : spacing m ≤ j + 53 := spacing_le_of_lt_mul (k := 53) hhigh
  have hhalf : ∀ s ≤ j + 53, 2 ^ s ∣ 2 ^ 53 * 2 ^ j := by
    intro s hs
    rw [← pow_add, Nat.add_comm]
    exact pow_dvd_pow 2 hs
  have hsum : 2 ^ spacing m ∣ m + 2 ^ 53 * 2 ^ j := Nat.dvd_add hm (hhalf _ hfine)
  obtain ⟨e, he⟩ := Nat.exists_eq_add_of_le (le_spacing_of_mul_le (k := 1) hlow)
  have hend : 2 ^ (53 + spacing m) = 2 ^ e * (2 ^ 54 * 2 ^ j) := by
    rw [he, ← pow_add, ← pow_add]
    congr 1
    omega
  rcases Nat.lt_trichotomy (m + 2 ^ 53 * 2 ^ j) (2 ^ (53 + spacing m)) with hlt | heq | hgt
  · rw [roundRatio_of_onGrid (onGrid_of_dvd hlt hsum)]
  · rw [heq, roundRatio_of_onGrid (onGrid_two_pow _)]
  · -- the sum is in the next binade, less than one half beyond the first number of it
    have hgap := hm.add_step_le (by omega)
    have hstep : spacing m + 1 ≤ j + 53 := by
      have hbelow : 2 ^ spacing m < 2 ^ (53 + j) := by
        rw [pow_add]
        omega
      have := (Nat.pow_lt_pow_iff_right (by decide)).mp hbelow
      omega
    have hgrid : OnGrid (2 ^ (53 + spacing m) + 2 ^ 53 * 2 ^ j) := by
      apply onGrid_of_dvd (s := spacing m + 1)
      · rw [← Nat.add_assoc, pow_succ]
        omega
      · exact Nat.dvd_add (pow_dvd_pow 2 (by omega)) (hhalf _ hstep)
    have hlow := le_roundRatio (onGrid_two_pow (53 + spacing m)) hgt.le
    have hhigh := roundRatio_le hgrid (n := m + 2 ^ 53 * 2 ^ j) (by omega)
    have hfloor : ∀ n, 2 ^ (53 + spacing m) ≤ n → n ≤ 2 ^ (53 + spacing m) + 2 ^ 53 * 2 ^ j →
        n / (2 ^ 54 * 2 ^ j) = 2 ^ e := by
      intro n hn hn'
      apply Nat.div_eq_of_lt_le
      · omega
      · rw [Nat.add_one_mul]
        omega
    rw [hfloor _ hlow hhigh, hfloor _ hgt.le (by omega)]

/-- Beyond the last place for halves only an odd number changes: the sum is half way to the next. -/
theorem roundRatio_add_half_coarse (hm : OnGrid m) (hlow : 2 ^ 106 * 2 ^ j ≤ m) :
    roundRatio (m + 2 ^ 53 * 2 ^ j) 1 =
      if m < 2 ^ 107 * 2 ^ j ∧ m / (2 ^ 54 * 2 ^ j) % 2 = 1 then m + 2 ^ 54 * 2 ^ j else m := by
  have hone : 2 ^ (j + 54) = 2 ^ 54 * 2 ^ j := by rw [Nat.add_comm, pow_add]
  have hcoarse : j + 54 ≤ spacing m := le_spacing_of_mul_le (k := 54) hlow
  have hstep : 2 ^ (j + 54) ≤ 2 ^ spacing m := Nat.pow_le_pow_right (by decide) hcoarse
  rw [roundRatio_add hm (by omega)]
  rcases Nat.lt_or_ge m (2 ^ 107 * 2 ^ j) with hlt | hge
  · have hspacing : spacing m = j + 54 :=
      Nat.le_antisymm (spacing_le_of_lt_mul (k := 54) hlt) hcoarse
    have hhalf : 2 * (2 ^ 53 * 2 ^ j) = 2 ^ 54 * 2 ^ j := by omega
    simp only [hspacing, hone, hhalf, hlt, true_and]
  · have hcoarser : j + 55 ≤ spacing m := le_spacing_of_mul_le (k := 55) hge
    have hdouble : 2 ^ (j + 55) ≤ 2 ^ spacing m := Nat.pow_le_pow_right (by decide) hcoarser
    have hpos := Nat.two_pow_pos j
    have htwice : 2 ^ (j + 55) = 2 * (2 ^ 54 * 2 ^ j) := by rw [← hone, ← pow_succ']
    rw [if_neg (by omega), if_neg (by omega)]

theorem onGrid_sub_half (hm : OnGrid m) (hhigh : m ≤ 2 ^ 106 * 2 ^ j) :
    OnGrid (m - 2 ^ 53 * 2 ^ j) := by
  have hhalf : 2 ^ (j + 53) = 2 ^ 53 * 2 ^ j := by rw [Nat.add_comm, pow_add]
  have hpos := Nat.two_pow_pos j
  rcases Nat.lt_or_eq_of_le hhigh with hlt | heq
  · have hfine : spacing m ≤ j + 53 := spacing_le_of_lt_mul (k := 53) hlt
    apply onGrid_of_dvd (Nat.lt_of_le_of_lt (Nat.sub_le _ _) (lt_two_pow_spacing m))
    apply Nat.dvd_sub hm
    rw [← hhalf]
    exact pow_dvd_pow 2 hfine
  · apply onGrid_of_dvd (s := j + 53)
    · rw [pow_add, hhalf]
      omega
    · rw [hhalf, heq]
      exact ⟨2 ^ 53 - 1, by omega⟩

theorem roundRatio_sub_half_coarse (hm : OnGrid m) (hlow : 2 ^ 106 * 2 ^ j < m) :
    roundRatio (m - 2 ^ 53 * 2 ^ j) 1 =
      if m < 2 ^ 107 * 2 ^ j ∧ m / (2 ^ 54 * 2 ^ j) % 2 = 1 then m - 2 ^ 54 * 2 ^ j else m := by
  have hone : 2 ^ (j + 54) = 2 ^ 54 * 2 ^ j := by rw [Nat.add_comm, pow_add]
  have hpos := Nat.two_pow_pos j
  have hcoarse : j + 54 ≤ spacing m := le_spacing_of_mul_le (k := 54) hlow.le
  -- with units as its last place a number less one half is a tie; with a coarser one it is not
  rcases Nat.lt_or_ge m (2 ^ 107 * 2 ^ j) with hlt | hge
  · have hspacing : spacing m = j + 54 :=
      Nat.le_antisymm (spacing_le_of_lt_mul (k := 54) hlt) hcoarse
    obtain ⟨q, hq, -, hlast⟩ := hm.exists_mul (by omega)
    rw [hspacing] at hq
    have hfirst : 2 ^ 52 < q := by
      rw [hq, hone, ← Nat.mul_assoc] at hlow
      have := Nat.lt_of_mul_lt_mul_right hlow
      omega
    obtain ⟨p, rfl⟩ := Nat.exists_eq_add_one_of_ne_zero (n := q) (by omega)
    rw [← hone, hq, Nat.mul_div_cancel _ (Nat.two_pow_pos _)]
    by_cases hodd : (p + 1) % 2 = 1
    · have hsum : (p + 1) * 2 ^ (j + 54) - 2 ^ 53 * 2 ^ j = p * 2 ^ (j + 54) + 2 ^ 53 * 2 ^ j := by
        rw [Nat.add_one_mul]
        omega
      have heven := spacing_mul_two_pow (q := p) (s := j + 54) (by omega) (by omega)
      have hgrid := onGrid_of_spacing heven (Nat.dvd_mul_left _ _)
      rw [hsum, roundRatio_add hgrid (by rw [heven]; omega), heven,
        Nat.mul_div_cancel _ (Nat.two_pow_pos _), if_neg (by omega), if_pos ⟨by omega, hodd⟩,
        Nat.add_one_mul, Nat.add_sub_cancel]
    · rw [roundRatio_below (by omega) (by omega) (by omega) (by omega), if_neg (by omega)]
  · have hcoarser : j + 55 ≤ spacing m := le_spacing_of_mul_le (k := 55) hge
    have hdouble : 2 ^ (j + 55) ≤ 2 ^ spacing m := Nat.pow_le_pow_right (by decide) hcoarser
    have htwice : 2 ^ (j + 55) = 2 * (2 ^ 54 * 2 ^ j) := by rw [← hone, ← pow_succ']
    rw [roundRatio_sub hm (by omega), if_neg (by omega)]

/-- An odd integer whose last place is that of the units, a unit being `2 ^ 54 * 2 ^ j`. -/
def OddLast (j m : Nat) : Prop :=
  2 ^ 106 * 2 ^ j < m ∧ m < 2 ^ 107 * 2 ^ j ∧ m / (2 ^ 54 * 2 ^ j) % 2 = 1

instance (j m : Nat) : Decidable (OddLast j m) := inferInstanceAs (Decidable (_ ∧ _))

theorem oddLast_iff (hlow : 2 ^ 106 * 2 ^ j ≤ m) :
    OddLast j m ↔ m < 2 ^ 107 * 2 ^ j ∧ m / (2 ^ 54 * 2 ^ j) % 2 = 1 := by
  have hpos := Nat.two_pow_pos j
  constructor
  · exact And.right
  · rintro ⟨hhigh, hodd⟩
    refine ⟨Nat.lt_of_le_of_ne hlow ?_, hhigh, hodd⟩
    rintro rfl
    rw [Nat.mul_div_mul_right _ _ hpos] at hodd
    omega

theorem exists_units_of_coarse (hm : OnGrid m) (hlow : 2 ^ 106 * 2 ^ j ≤ m) :
    ∃ c, m = 2 ^ 54 * 2 ^ j * c := by
  have hcoarse : j + 54 ≤ spacing m := le_spacing_of_mul_le (k := 54) hlow
  rw [← pow_add, Nat.add_comm]
  exact (pow_dvd_pow 2 hcoarse).trans hm

theorem floor_add_half (hm : OnGrid m) :
    roundRatio (m + 2 ^ 53 * 2 ^ j) 1 / (2 ^ 54 * 2 ^ j) =
      (m + 2 ^ 53 * 2 ^ j) / (2 ^ 54 * 2 ^ j) +
        if m + 2 ^ j = 2 ^ 53 * 2 ^ j ∨ OddLast j m then 1 else 0 := by
  have hpos := Nat.two_pow_pos j
  -- below one half, then up to the last place for halves, then beyond it
  rcases Nat.lt_or_ge m (2 ^ 53 * 2 ^ j) with hsmall | hhalf
  · rw [Nat.div_eq_of_lt (a := m + 2 ^ 53 * 2 ^ j) (by omega)]
    by_cases hbelow : m + 2 ^ j = 2 ^ 53 * 2 ^ j
    · rw [roundRatio_add_half_below hbelow, Nat.div_self (by omega), if_pos (.inl hbelow)]
    · rw [Nat.div_eq_of_lt (roundRatio_add_half_lt hm hsmall hbelow),
        if_neg (by unfold OddLast; omega)]
  · rcases Nat.lt_or_ge m (2 ^ 106 * 2 ^ j) with hmiddle | hcoarse
    · rw [floor_add_half_middle hm hhalf hmiddle, if_neg (by unfold OddLast; omega), Nat.add_zero]
    · have hnot : m + 2 ^ j ≠ 2 ^ 53 * 2 ^ j := by omega
      obtain ⟨c, hc⟩ := exists_units_of_coarse hm hcoarse
      have hfloor : (m + 2 ^ 53 * 2 ^ j) / (2 ^ 54 * 2 ^ j) = m / (2 ^ 54 * 2 ^ j) := by
        rw [hc, Nat.mul_add_div (by omega), Nat.div_eq_of_lt (by omega), Nat.add_zero,
          Nat.mul_div_cancel_left _ (by omega)]
      simp only [roundRatio_add_half_coarse hm hcoarse, hfloor, hnot, false_or,
        oddLast_iff hcoarse]
      split
      · rw [Nat.add_div_right _ (by omega)]
      · rw [Nat.add_zero]

theorem floor_half_sub (hm : OnGrid m) :
    rounded ((2 ^ 53 * 2 ^ j : Nat) - m) / (2 ^ 54 * 2 ^ j : Nat) =
      ((2 ^ 53 * 2 ^ j : Nat) - m) / (2 ^ 54 * 2 ^ j : Nat) + if OddLast j m then 1 else 0 := by
  have hpos := Nat.two_pow_pos j
  rcases Nat.le_total m (2 ^ 53 * 2 ^ j) with hsmall | hhalf
  · have hgrid : OnGrid (2 ^ 53 * 2 ^ j) := by
      rw [← pow_add]
      exact onGrid_two_pow _
    have hround := roundRatio_le hgrid (n := 2 ^ 53 * 2 ^ j - m) (Nat.sub_le _ _)
    rw [← Nat.cast_sub hsmall, rounded_natCast, if_neg (by unfold OddLast; omega)]
    norm_cast
    rw [Nat.div_eq_of_lt (by omega), Nat.div_eq_of_lt (by omega)]
  · have hneg : ((2 ^ 53 * 2 ^ j : Nat) - m : Int) = -((m - 2 ^ 53 * 2 ^ j : Nat) : Int) := by
      rw [Nat.cast_sub hhalf, neg_sub]
    rw [hneg, rounded_neg_natCast]
    -- beyond the last place for halves the difference is rounded, and below it is exact
    rcases Nat.lt_or_ge (2 ^ 106 * 2 ^ j) m with hcoarse | hfine
    · obtain ⟨c, hc⟩ := exists_units_of_coarse hm hcoarse.le
      have hunit : ((2 ^ 54 * 2 ^ j : Nat) : Int) ≠ 0 := by omega
      have hcast : (m : Int) = c * (2 ^ 54 * 2 ^ j : Nat) := by
        rw [Int.mul_comm, ← Nat.cast_mul, ← hc]
      have hfloor : -((m - 2 ^ 53 * 2 ^ j : Nat) : Int) / (2 ^ 54 * 2 ^ j : Nat) = -c := by
        rw [← hneg, hcast, sub_eq_add_neg, ← neg_mul, Int.add_mul_ediv_right _ _ hunit,
          Int.ediv_eq_zero_of_lt (by omega) (by omega), zero_add]
      simp only [roundRatio_sub_half_coarse hm hcoarse, hfloor, oddLast_iff hcoarse.le]
      split
      · have hbelow : -((m - 2 ^ 54 * 2 ^ j : Nat) : Int) = (-c + 1) * (2 ^ 54 * 2 ^ j : Nat) := by
          rw [Nat.cast_sub (by omega), hcast]
          ring
        rw [hbelow, Int.mul_ediv_cancel _ hunit]
      · rw [hcast, ← neg_mul, Int.mul_ediv_cancel _ hunit, Int.add_zero]
    · rw [roundRatio_of_onGrid (onGrid_sub_half hm hfine), if_neg (by unfold OddLast; omega),
        Int.add_zero]

end Half

def toRat (x : Binary64) : ℚ := (x.units?.getD 0 : ℤ) / (one : ℚ)

/-- The numbers whose sum with one half is rounded into the next unit: the number just below one
half, and the odd integers of 53 bits but the first. -/
def Carries (x : Binary64) : Prop :=
  x.toRat = 1 / 2 - 1 / 2 ^ 54 ∨ ∃ n : ℤ, Odd n ∧ 2 ^ 52 < |n| ∧ |n| < 2 ^ 53 ∧ x.toRat = n

theorem floor_rounded_add_half {j : Nat} {u : Int} (hu : OnGrid u.natAbs) :
    rounded (u + (2 ^ 53 * 2 ^ j : Nat)) / (2 ^ 54 * 2 ^ j : Nat) =
      (u + (2 ^ 53 * 2 ^ j : Nat)) / (2 ^ 54 * 2 ^ j : Nat) +
        if u + 2 ^ j = 2 ^ 53 * 2 ^ j ∨ OddLast j u.natAbs then 1 else 0 := by
  have hpos := Nat.two_pow_pos j
  obtain ⟨m, rfl | rfl⟩ := Int.eq_nat_or_neg u
  · have hfloor := floor_add_half (j := j) (m := m) hu
    rw [Int.natAbs_natCast, ← Nat.cast_add, rounded_natCast]
    norm_cast
  · rw [Int.natAbs_neg, Int.natAbs_natCast] at hu ⊢
    have hnot : ¬ (-(m : Int) + 2 ^ j = 2 ^ 53 * 2 ^ j) := by
      have hstep : (0 : Int) < 2 ^ j := Int.pow_pos (by decide)
      omega
    simp only [hnot, false_or]
    rw [Int.add_comm, ← sub_eq_add_neg]
    exact floor_half_sub hu

variable {x : Binary64}

theorem exists_place :
    ∃ j, one = 2 ^ 54 * 2 ^ j ∧ half.units? = some ((2 ^ 53 * 2 ^ j : Nat) : Int) := by
  obtain ⟨h, hone, -, hhalf⟩ := exists_half
  obtain ⟨j, hj⟩ : ∃ j, one = 2 ^ 54 * 2 ^ j := ⟨1020, by rw [one_eq, ← pow_add]⟩
  have heq : h = 2 ^ 53 * 2 ^ j := by omega
  exact ⟨j, hj, heq ▸ hhalf⟩

theorem toRat_of_units {u : Int} (hu : x.units? = some u) : x.toRat = u / (one : ℚ) := by
  rw [toRat, hu, Option.getD_some]

theorem floor_toRat_add_half {j : Nat} {u : Int} (hone : one = 2 ^ 54 * 2 ^ j)
    (hu : x.units? = some u) :
    ⌊x.toRat + 1 / 2⌋ = (u + (2 ^ 53 * 2 ^ j : Nat)) / (2 ^ 54 * 2 ^ j : Nat) := by
  have hunit : ((2 ^ 54 * 2 ^ j : Nat) : ℚ) ≠ 0 := by positivity
  have hsum : x.toRat + 1 / 2 =
      ((u + (2 ^ 53 * 2 ^ j : Nat) : Int) : ℚ) / (2 ^ 54 * 2 ^ j : Nat) := by
    rw [toRat_of_units hu, hone]
    field_simp
    push_cast
    ring
  rw [hsum, Rat.floor_intCast_div_natCast]

theorem exists_odd_iff {j : Nat} {u : Int} (hu : OnGrid u.natAbs) :
    (∃ n : ℤ, Odd n ∧ 2 ^ 52 < |n| ∧ |n| < 2 ^ 53 ∧ u = n * (2 ^ 54 * 2 ^ j : Nat)) ↔
      OddLast j u.natAbs := by
  have hpos := Nat.two_pow_pos j
  have hfirst : 2 ^ 106 * 2 ^ j = 2 ^ 52 * (2 ^ 54 * 2 ^ j) := by omega
  have hend : 2 ^ 107 * 2 ^ j = 2 ^ 53 * (2 ^ 54 * 2 ^ j) := by omega
  have hlow (c : Nat) : 2 ^ 106 * 2 ^ j < c * (2 ^ 54 * 2 ^ j) ↔ 2 ^ 52 < c := by
    rw [hfirst, Nat.mul_lt_mul_right (by omega)]
  have hhigh (c : Nat) : c * (2 ^ 54 * 2 ^ j) < 2 ^ 107 * 2 ^ j ↔ c < 2 ^ 53 := by
    rw [hend, Nat.mul_lt_mul_right (by omega)]
  have hquot (c : Nat) : c * (2 ^ 54 * 2 ^ j) / (2 ^ 54 * 2 ^ j) = c :=
    Nat.mul_div_cancel _ (by omega)
  constructor
  · rintro ⟨n, hodd, habove, hbelow, rfl⟩
    rw [Int.abs_eq_natAbs] at habove hbelow
    rw [Int.natAbs_mul, Int.natAbs_natCast, OddLast, hlow, hhigh, hquot, ← Nat.odd_iff,
      Int.natAbs_odd]
    exact ⟨by omega, by omega, hodd⟩
  · intro hodd
    obtain ⟨c, hc⟩ := exists_units_of_coarse hu hodd.1.le
    rw [Nat.mul_comm] at hc
    rw [OddLast, hc, hlow, hhigh, hquot] at hodd
    obtain ⟨n, hn, heq⟩ : ∃ n : Int, n.natAbs = c ∧ u = n * (2 ^ 54 * 2 ^ j : Nat) := by
      rcases Int.natAbs_eq u with hu | hu
      · exact ⟨c, rfl, by rw [hu, hc, Nat.cast_mul]⟩
      · exact ⟨-c, Int.natAbs_neg c, by rw [hu, hc, Nat.cast_mul, neg_mul]⟩
    refine ⟨n, ?_, ?_, ?_, heq⟩
    · rw [← Int.natAbs_odd, hn, Nat.odd_iff]
      exact hodd.2.2
    · rw [Int.abs_eq_natAbs, hn]
      exact_mod_cast hodd.1
    · rw [Int.abs_eq_natAbs, hn]
      exact_mod_cast hodd.2.1

theorem carries_iff {j : Nat} {u : Int} (hone : one = 2 ^ 54 * 2 ^ j) (hu : x.units? = some u)
    (hgrid : OnGrid u.natAbs) :
    x.Carries ↔ u + 2 ^ j = 2 ^ 53 * 2 ^ j ∨ OddLast j u.natAbs := by
  have hunit : ((2 ^ 54 * 2 ^ j : Nat) : ℚ) ≠ 0 := by positivity
  have hvalue (n : ℤ) : x.toRat = n ↔ u = n * (2 ^ 54 * 2 ^ j : Nat) := by
    rw [toRat_of_units hu, hone, div_eq_iff hunit, ← Int.cast_natCast, ← Int.cast_mul, Int.cast_inj]
  apply or_congr
  · have hbelow : (1 / 2 - 1 / 2 ^ 54 : ℚ) * (2 ^ 54 * 2 ^ j : Nat) =
        ((2 ^ 53 * 2 ^ j - 2 ^ j : Int) : ℚ) := by
      push_cast
      ring
    rw [toRat_of_units hu, hone, div_eq_iff hunit, hbelow, Int.cast_inj, eq_sub_iff_add_eq]
  · simp only [hvalue]
    exact exists_odd_iff hgrid

open Classical in
theorem floor?_add_half_eq (hx : x.isFinite = true) :
    (x.add half).floor? = some (⌊x.toRat + 1 / 2⌋ + if x.Carries then 1 else 0) := by
  obtain ⟨j, hone, hhalf⟩ := exists_place
  obtain ⟨u, hu, hrep⟩ := exists_units hx
  have hgrid := hrep.onGrid
  have hsum := units?_add hu hhalf
  have hfinite : (ofUnits (u + (2 ^ 53 * 2 ^ j : Nat))).isFinite = true := by
    obtain ⟨v, hv, -⟩ := exists_units (isFinite_add_half hx)
    exact isFinite_of_units? (hsum.symm.trans hv)
  rw [floor?, hsum, units?_ofUnits_of_isFinite hfinite, Option.map_some, hone,
    floor_rounded_add_half hgrid, floor_toRat_add_half hone hu]
  simp only [carries_iff hone hu hgrid]

end GraphBlock.Binary64
