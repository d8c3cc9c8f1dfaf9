import GraphBlock.Number.Basic
import Mathlib.Data.Nat.Log
import Mathlib.Tactic.Ring

namespace GraphBlock.Binary64

theorem one_eq : one = 2 ^ 1074 := by rw [one]

theorem limit_eq : limit = 2 ^ 2098 := by rw [limit]

theorem limit_le : limit ≤ one * 10 ^ 400 := by
  have hpow : 2 ^ 1024 ≤ 10 ^ 400 :=
    calc 2 ^ 1024 ≤ 2 ^ (3 * 400) := Nat.pow_le_pow_right (by decide) (by decide)
      _ = (2 ^ 3) ^ 400 := by rw [pow_mul]
      _ ≤ 10 ^ 400 := Nat.pow_le_pow_left (by decide) 400
  calc limit = one * 2 ^ 1024 := by rw [limit_eq, one_eq, ← pow_add]
    _ ≤ one * 10 ^ 400 := Nat.mul_le_mul_left one hpow

theorem lt_two_pow_spacing (n : Nat) : n < 2 ^ (53 + spacing n) := by
  apply Nat.lt_of_lt_of_le Nat.lt_log2_self
  exact Nat.pow_le_pow_right (by decide) (by rw [spacing]; omega)

theorem spacing_le {n s : Nat} (h : n < 2 ^ (53 + s)) : spacing n ≤ s := by
  by_cases hzero : n = 0
  · rw [hzero]
    exact Nat.zero_le s
  · have hlog := (Nat.log2_lt hzero).mpr h
    rw [spacing]
    omega

theorem roundRatio_mul_left {c : Nat} (hc : 0 < c) (num den : Nat) :
    roundRatio (c * num) (c * den) = roundRatio num den := by
  have hquot : c * num / (c * den) = num / den := Nat.mul_div_mul_left _ _ hc
  have hlower (u : Nat) : c * num / (c * u) = num / u := Nat.mul_div_mul_left _ _ hc
  have hrest (u : Nat) : c * num % (c * u) = c * (num % u) := Nat.mul_mod_mul_left _ _ _
  have habove (r u : Nat) : 2 * (c * r) > c * u ↔ 2 * r > u := by
    rw [Nat.mul_left_comm]
    exact Nat.mul_lt_mul_left hc
  have htie (r u : Nat) : 2 * (c * r) = c * u ↔ 2 * r = u := by
    rw [Nat.mul_left_comm]
    exact Nat.mul_right_inj hc.ne'
  simp only [roundRatio, hquot, Nat.mul_assoc, hlower, hrest, habove, htie]

theorem roundRatio_congr {a b c d : Nat} (hb : 0 < b) (hd : 0 < d) (h : a * d = c * b) :
    roundRatio a b = roundRatio c d := by
  calc roundRatio a b
      = roundRatio (d * a) (d * b) := (roundRatio_mul_left hd a b).symm
    _ = roundRatio (b * c) (b * d) := by
      rw [Nat.mul_comm d a, h, Nat.mul_comm c b, Nat.mul_comm d b]
    _ = roundRatio c d := roundRatio_mul_left hb c d

theorem ofRatio_congr {negative : Bool} {a b c d : Nat} (hb : 0 < b) (hd : 0 < d)
    (h : a * d = c * b) : ofRatio negative a b = ofRatio negative c d := by
  simp only [ofRatio, roundRatio_congr hb hd h]

theorem roundRatio_mul_self {m den : Nat} (hden : 0 < den) (hm : m % 2 ^ spacing m = 0) :
    roundRatio (m * den) den = m := by
  have hquot : m * den / den = m := Nat.mul_div_cancel _ hden
  have hstep : 0 < 2 ^ spacing m := Nat.two_pow_pos _
  have hlower : m * den / (den * 2 ^ spacing m) = m / 2 ^ spacing m := by
    rw [Nat.mul_comm m, Nat.mul_div_mul_left _ _ hden]
  have hrest : m * den % (den * 2 ^ spacing m) = 0 := by
    rw [Nat.mul_comm m, Nat.mul_mod_mul_left, hm, Nat.mul_zero]
  have hunit : 0 < den * 2 ^ spacing m := Nat.mul_pos hden hstep
  simp only [roundRatio, hquot, hlower, hrest]
  rw [if_neg (by omega)]
  exact Nat.div_mul_cancel (Nat.dvd_of_mod_eq_zero hm)

theorem ofRatio_mul_self {negative : Bool} {m den : Nat} (hden : 0 < den) (hm : Representable m) :
    ofRatio negative (m * den) den = finite negative m hm := by
  have h := roundRatio_mul_self hden hm.2
  simp only [ofRatio, h, dif_pos hm]

theorem ofRatio_one {negative : Bool} {m : Nat} (hm : Representable m) :
    ofRatio negative m 1 = finite negative m hm := by
  have hself : ofRatio negative (m * 1) 1 = finite negative m hm := ofRatio_mul_self Nat.one_pos hm
  simpa using hself

theorem roundRatio_eq_zero {num den : Nat} (h : 2 * num < den) : roundRatio num den = 0 := by
  have hquot : num / den = 0 := Nat.div_eq_of_lt (by omega)
  have hlog : spacing 0 = 0 := by decide
  simp only [roundRatio, hquot, hlog, pow_zero, Nat.mul_one,
    Nat.mod_eq_of_lt (show num < den by omega)]
  rw [if_neg (by omega)]

theorem ofRatio_eq_zero {negative : Bool} {num den : Nat} (h : 2 * num < den) :
    ofRatio negative num den = zero negative := by
  simp only [ofRatio, roundRatio_eq_zero h, dif_pos representable_zero, zero]

theorem two_pow_le_roundRatio {num den k : Nat} (hden : 0 < den) (hk : 52 ≤ k)
    (h : 2 ^ k * den ≤ num) : 2 ^ k ≤ roundRatio num den := by
  have hq : 2 ^ k ≤ num / den := (Nat.le_div_iff_mul_le hden).mpr h
  have hne : num / den ≠ 0 := by
    have := Nat.two_pow_pos k
    omega
  have hlog : k ≤ (num / den).log2 := (Nat.le_log2 hne).mpr hq
  have hself : 2 ^ (num / den).log2 ≤ num / den := Nat.log2_self_le hne
  have hspacing : (num / den).log2 = 52 + spacing (num / den) := by
    rw [spacing]
    omega
  have hlower : 2 ^ 52 ≤ num / (den * 2 ^ spacing (num / den)) := by
    rw [← Nat.div_div_eq_div_mul, Nat.le_div_iff_mul_le (Nat.two_pow_pos _), ← pow_add, ← hspacing]
    exact hself
  have hresult : 2 ^ k ≤ num / (den * 2 ^ spacing (num / den)) * 2 ^ spacing (num / den) :=
    calc 2 ^ k ≤ 2 ^ (num / den).log2 := Nat.pow_le_pow_right (by decide) hlog
      _ = 2 ^ 52 * 2 ^ spacing (num / den) := by rw [← pow_add, ← hspacing]
      _ ≤ _ := Nat.mul_le_mul_right _ hlower
  simp only [roundRatio]
  split
  · exact hresult.trans (Nat.mul_le_mul_right _ (Nat.le_succ _))
  · exact hresult

theorem ofRatio_eq_infinite {negative : Bool} {num den : Nat} (hden : 0 < den)
    (h : limit * den ≤ num) : ofRatio negative num den = infinite negative := by
  obtain ⟨k, hk, hlimit⟩ : ∃ k, 52 ≤ k ∧ limit = 2 ^ k := ⟨2098, by decide, limit_eq⟩
  rw [hlimit] at h
  have hno : ¬ Representable (roundRatio num den) := by
    rintro ⟨hr, -⟩
    rw [hlimit] at hr
    exact absurd hr (Nat.not_lt.mpr (two_pow_le_roundRatio hden hk h))
  simp only [ofRatio, dif_neg hno]

theorem representable_mul_pow {n k : Nat} (hn : n < 2 ^ 53) (hk : k ≤ 2045) :
    Representable (n * 2 ^ k) := by
  have hlimit : n * 2 ^ k < limit := by
    rw [limit]
    calc n * 2 ^ k < 2 ^ 53 * 2 ^ k := Nat.mul_lt_mul_of_pos_right hn (Nat.two_pow_pos k)
      _ = 2 ^ (53 + k) := (pow_add 2 53 k).symm
      _ ≤ 2 ^ 2098 := Nat.pow_le_pow_right (by decide) (by omega)
  refine ⟨hlimit, Nat.mod_eq_zero_of_dvd ?_⟩
  have hspacing : spacing (n * 2 ^ k) ≤ k := by
    apply spacing_le
    rw [pow_add]
    exact Nat.mul_lt_mul_of_pos_right hn (Nat.two_pow_pos k)
  exact Dvd.dvd.mul_left (pow_dvd_pow 2 hspacing) n

theorem representable_mul_one {n : Nat} (hn : n < 2 ^ 53) : Representable (n * one) := by
  obtain ⟨k, hk, hone⟩ : ∃ k, k ≤ 2045 ∧ one = 2 ^ k := ⟨1074, by decide, one_eq⟩
  rw [hone]
  exact representable_mul_pow hn hk

theorem ofInt_eq {n : Int} (hn : n.natAbs < 2 ^ 53) :
    ofInt n = finite (n < 0) (n.natAbs * one) (representable_mul_one hn) :=
  ofRatio_one _

def greatestStep : Nat := 2 ^ 2045

theorem greatestStep_eq : greatestStep = 2 ^ 2045 := by rw [greatestStep]

theorem limit_eq_mul : limit = 2 ^ 53 * greatestStep := by
  rw [limit_eq, greatestStep_eq, ← pow_add]

theorem one_lt_greatestStep : one < greatestStep := by
  rw [one_eq, greatestStep_eq]
  exact Nat.pow_lt_pow_right (by decide) (by decide)

theorem spacing_le_of_lt_limit {n : Nat} (h : n < limit) : spacing n ≤ 2045 :=
  spacing_le (h.trans_eq limit_eq)

theorem two_pow_spacing_le {n : Nat} (h : n < limit) : 2 ^ spacing n ≤ greatestStep := by
  obtain ⟨k, hk, hstep⟩ : ∃ k, 2045 ≤ k ∧ greatestStep = 2 ^ k := ⟨2045, le_rfl, greatestStep_eq⟩
  rw [hstep]
  exact Nat.pow_le_pow_right (by decide) ((spacing_le_of_lt_limit h).trans hk)

theorem Representable.add_greatestStep_le {m : Nat} (hm : Representable m) :
    m + greatestStep ≤ limit := by
  obtain ⟨hlimit, hmultiple⟩ := hm
  obtain ⟨k, hk, hstep⟩ : ∃ k, k = 2045 ∧ greatestStep = 2 ^ k := ⟨2045, rfl, greatestStep_eq⟩
  have hspacing : spacing m ≤ k := hk ▸ spacing_le_of_lt_limit hlimit
  rcases Nat.lt_or_eq_of_le hspacing with hlow | htop
  · -- the numbers with a finer last place fill only half of the format
    have hhalf : m < 2 ^ 52 * greatestStep := by
      rw [hstep, ← pow_add]
      apply Nat.lt_of_lt_of_le (lt_two_pow_spacing m)
      exact Nat.pow_le_pow_right (by decide) (by omega)
    rw [limit_eq_mul]
    omega
  · obtain ⟨q, hq⟩ := Nat.dvd_of_mod_eq_zero hmultiple
    rw [htop, ← hstep] at hq
    rw [hq, limit_eq_mul, Nat.mul_comm] at hlimit
    have hlt : q < 2 ^ 53 := Nat.lt_of_mul_lt_mul_right hlimit
    calc m + greatestStep = (q + 1) * greatestStep := by rw [hq]; ring
      _ ≤ 2 ^ 53 * greatestStep := Nat.mul_le_mul_right _ hlt
      _ = limit := limit_eq_mul.symm

/-- Rounding goes up by no more than half a step. -/
theorem two_mul_roundRatio_le (n : Nat) : 2 * roundRatio n 1 ≤ 2 * n + 2 ^ spacing n := by
  have hsplit := Nat.div_add_mod' n (2 ^ spacing n)
  simp only [roundRatio, Nat.div_one, Nat.one_mul]
  split
  · next hup =>
    rw [Nat.add_mul, Nat.one_mul]
    omega
  · omega

theorem representable_roundRatio {n : Nat} (hn : n < limit) (h : roundRatio n 1 < limit) :
    Representable (roundRatio n 1) := by
  have hspacing := spacing_le_of_lt_limit hn
  have hstep : 0 < 2 ^ spacing n := Nat.two_pow_pos _
  have hlower : n / 2 ^ spacing n < 2 ^ 53 := by
    rw [Nat.div_lt_iff_lt_mul hstep, ← pow_add]
    exact lt_two_pow_spacing n
  obtain ⟨c, hc, hround⟩ : ∃ c ≤ 2 ^ 53, roundRatio n 1 = c * 2 ^ spacing n := by
    simp only [roundRatio, Nat.div_one, Nat.one_mul]
    split
    · exact ⟨_, hlower, rfl⟩
    · exact ⟨_, hlower.le, rfl⟩
  rw [hround] at h ⊢
  rcases Nat.lt_or_eq_of_le hc with hlt | htop
  · exact representable_mul_pow hlt hspacing
  · -- the significand carries, and the step doubles
    have hdouble : c * 2 ^ spacing n = 2 ^ 52 * 2 ^ (spacing n + 1) := by
      rw [htop, ← pow_add, ← pow_add, Nat.add_comm (spacing n), ← Nat.add_assoc]
    have hroom : spacing n < 2045 := by
      obtain ⟨k, hk, hstep⟩ : ∃ k, k ≤ 2045 ∧ greatestStep = 2 ^ k :=
        ⟨2045, le_rfl, greatestStep_eq⟩
      rw [htop, limit_eq_mul, hstep] at h
      exact Nat.lt_of_lt_of_le
        ((Nat.pow_lt_pow_iff_right (by decide)).mp (Nat.lt_of_mul_lt_mul_left h)) hk
    rw [hdouble]
    exact representable_mul_pow (Nat.pow_lt_pow_right (by decide) (by decide))
      (Nat.succ_le_of_lt hroom)

end GraphBlock.Binary64
