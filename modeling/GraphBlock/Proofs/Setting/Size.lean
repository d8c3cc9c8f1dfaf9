import GraphBlock.Proofs.Number.HalfUp
import GraphBlock.Proofs.Setting.Conversion

namespace GraphBlock

namespace Binary64

variable {x : Binary64} {n : ℤ}

/-- The integer nearest to a number, and of two that are equally near the upper one. -/
def RoundsHalfUp (x : Binary64) (n : ℤ) : Prop :=
  (n : ℚ) - 1 / 2 ≤ x.toRat ∧ x.toRat < n + 1 / 2

theorem roundsHalfUp_iff : x.RoundsHalfUp n ↔ ⌊x.toRat + 1 / 2⌋ = n := by
  rw [RoundsHalfUp, Int.floor_eq_iff]
  constructor
  · rintro ⟨hlow, hhigh⟩
    constructor <;> linarith
  · rintro ⟨hlow, hhigh⟩
    constructor <;> linarith

theorem roundsHalfUp_of_toRat_eq {i : ℤ} (hi : x.toRat = i) : x.RoundsHalfUp i := by
  rw [RoundsHalfUp, hi]
  constructor <;> linarith

theorem RoundsHalfUp.unique {m : ℤ} (hm : x.RoundsHalfUp m) (hn : x.RoundsHalfUp n) : m = n :=
  (roundsHalfUp_iff.mp hm).symm.trans (roundsHalfUp_iff.mp hn)

theorem toRat_eq_div {u p q : ℤ} (hu : x.units? = some u) (hq : q ≠ 0) (h : u * q = p * one) :
    x.toRat = p / q := by
  have hunit : ((one : ℤ) : ℚ) ≠ 0 := by
    exact_mod_cast one_pos.ne'
  rw [toRat_of_units hu, ← Int.cast_natCast, div_eq_div_iff hunit (by exact_mod_cast hq)]
  exact_mod_cast h

theorem exists_read_of_units {t : Text} {u : ℤ} (h : (read? t).bind units? = some u) :
    ∃ x, read? t = some x ∧ x.isFinite = true ∧ x.units? = some u := by
  obtain ⟨x, ht, hu⟩ := Option.bind_eq_some_iff.mp h
  exact ⟨x, ht, isFinite_of_units? hu, hu⟩

theorem not_carries_of_abs_le (hne : x.toRat ≠ 1 / 2 - 1 / 2 ^ 54) (h : |x.toRat| ≤ 2 ^ 52) :
    ¬ x.Carries := by
  rintro (heq | ⟨n, -, hlarge, -, hn⟩)
  · exact hne heq
  · rw [hn] at h
    exact absurd hlarge (not_lt.mpr (by exact_mod_cast h))

theorem floor?_add_half_of_not_carries (hx : x.isFinite = true) (h : ¬ x.Carries) :
    ∃ n, (x.add half).floor? = some n ∧ x.RoundsHalfUp n := by
  refine ⟨_, floor?_add_half_eq hx, ?_⟩
  rw [if_neg h, Int.add_zero, roundsHalfUp_iff]

theorem floor?_add_half_of_carries (hx : x.isFinite = true) (h : x.Carries) :
    ∃ n, (x.add half).floor? = some (n + 1) ∧ x.RoundsHalfUp n := by
  refine ⟨_, ?_, roundsHalfUp_iff.mpr rfl⟩
  rw [floor?_add_half_eq hx, if_pos h]

end Binary64

namespace Kind

/-- The text of a finite number is read as an integer, for every field and for both sizes. It is
the number rounded half up, an integral one unchanged, unless one half carries; then it is one
more. -/
theorem read_integer_half_up {field t : Text} {x : Binary64} (ht : Binary64.read? t = some x)
    (hx : x.isFinite = true) :
    ∃ n : ℤ, integer.read field (some t) = .ok (.int n) ∧
      (∀ d, Setting.read (.size d) (some t) = .ok (.size d (.int n))) ∧
      (¬ x.Carries → x.RoundsHalfUp n ∧ ∀ i : ℤ, x.toRat = i → n = i) ∧
      (x.Carries → x.RoundsHalfUp (n - 1)) := by
  have hread {n : ℤ} (hn : (x.add .half).floor? = some n) :
      integer.read field (some t) = .ok (.int n) ∧
        ∀ d, Setting.read (.size d) (some t) = .ok (.size d (.int n)) := by
    have hconverts : integer.Converts (some t) (.int n) := .integer ht hx hn
    exact ⟨read_of_converts hconverts, fun d => Setting.read_eq_ok_iff.mpr ⟨rfl, hconverts⟩⟩
  by_cases hcarries : x.Carries
  · obtain ⟨n, hn, hrounds⟩ := Binary64.floor?_add_half_of_carries hx hcarries
    refine ⟨n + 1, (hread hn).1, (hread hn).2, fun h => absurd hcarries h, fun _ => ?_⟩
    rwa [add_sub_cancel_right]
  · obtain ⟨n, hn, hrounds⟩ := Binary64.floor?_add_half_of_not_carries hx hcarries
    refine ⟨n, (hread hn).1, (hread hn).2, fun _ => ⟨hrounds, fun i hi => ?_⟩,
      fun h => absurd h hcarries⟩
    exact hrounds.unique (Binary64.roundsHalfUp_of_toRat_eq hi)

theorem read_integer_half_up_negative :
    ∃ x, Binary64.read? "-2.5" = some x ∧ x.isFinite = true ∧ x.toRat = -5 / 2 ∧ ¬ x.Carries ∧
      integer.read "width" (some "-2.5") = .ok (.int (-2)) := by
  obtain ⟨x, ht, hx, hu⟩ :=
    Binary64.exists_read_of_units (t := "-2.5") (u := -5 * 2 ^ 1073) (by decide +kernel)
  have hvalue : x.toRat = -5 / 2 := by
    have h := Binary64.toRat_eq_div (p := -5) (q := 2) hu (by decide) (by decide +kernel)
    exact_mod_cast h
  have hcarries : ¬ x.Carries := by
    apply Binary64.not_carries_of_abs_le <;> rw [hvalue] <;> norm_num [abs_of_neg]
  have hrounds : x.RoundsHalfUp (-2) := by
    rw [Binary64.RoundsHalfUp, hvalue]
    norm_num
  obtain ⟨n, hread, -, hexact, -⟩ := @read_integer_half_up "width" _ x ht hx
  rw [(hexact hcarries).1.unique hrounds] at hread
  exact ⟨x, ht, hx, hvalue, hcarries, hread⟩

/-- Not every number is rounded half up: the number just below one half becomes one, and an odd
integer of 53 bits the next one. -/
theorem not_read_integer_half_up :
    (∃ x, Binary64.read? "0.49999999999999994" = some x ∧ x.isFinite = true ∧
      integer.read "width" (some "0.49999999999999994") = .ok (.int 1) ∧ ¬ x.RoundsHalfUp 1) ∧
    ∃ x, Binary64.read? "4503599627370497" = some x ∧ x.isFinite = true ∧
      x.toRat = (4503599627370497 : ℤ) ∧
      integer.read "width" (some "4503599627370497") = .ok (.int 4503599627370498) := by
  obtain ⟨x, htx, hx, hux⟩ := Binary64.exists_read_of_units (t := "0.49999999999999994")
    (u := (2 ^ 53 - 1) * 2 ^ 1020) (by decide +kernel)
  obtain ⟨y, hty, hy, huy⟩ := Binary64.exists_read_of_units (t := "4503599627370497")
    (u := 4503599627370497 * 2 ^ 1074) (by decide +kernel)
  have hbelow := Binary64.toRat_eq_div (p := 2 ^ 53 - 1) (q := 2 ^ 54) hux (by decide)
    (by decide +kernel)
  have hodd := Binary64.toRat_eq_div (p := 4503599627370497) (q := 1) huy (by decide)
    (by decide +kernel)
  have hone : readInteger "width" (some "0.49999999999999994") = .ok 1 := by decide +kernel
  have hnext : readInteger "width" (some "4503599627370497") = .ok 4503599627370498 := by
    decide +kernel
  refine ⟨⟨x, htx, hx, by rw [read, hone]; rfl, ?_⟩, y, hty, hy, ?_, by rw [read, hnext]; rfl⟩
  · rw [Binary64.RoundsHalfUp, hbelow]
    norm_num
  · rw [hodd, Int.cast_one, div_one]

end Kind

end GraphBlock
