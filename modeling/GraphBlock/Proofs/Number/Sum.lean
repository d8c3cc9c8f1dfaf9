import GraphBlock.Proofs.Number.Grid
import GraphBlock.Proofs.Number.Place

namespace GraphBlock

namespace Binary64

theorem signed_false (n : Nat) : signed false n = n := rfl

theorem signed_true (n : Nat) : signed true n = -n := rfl

theorem natAbs_signed (negative : Bool) (n : Nat) : (signed negative n).natAbs = n := by
  cases negative <;> simp [signed]

theorem signed_add (negative : Bool) (m n : Nat) :
    signed negative (m + n) = signed negative m + signed negative n := by
  cases negative <;> simp [signed, Int.add_comm]

def rounded (u : Int) : Int := signed (u < 0) (roundRatio u.natAbs 1)

theorem rounded_signed (negative : Bool) (n : Nat) :
    rounded (signed negative n) = signed negative (roundRatio n 1) := by
  rw [rounded, natAbs_signed]
  by_cases hn : n = 0
  · have hzero : roundRatio 0 1 = 0 := roundRatio_eq_zero (by decide)
    rw [hn, hzero]
    cases negative <;> rfl
  · cases negative <;> simp [signed, Nat.pos_of_ne_zero hn]

theorem rounded_natCast (n : Nat) : rounded n = roundRatio n 1 := rounded_signed false n

theorem rounded_neg_natCast (n : Nat) : rounded (-n) = -(roundRatio n 1 : Int) :=
  rounded_signed true n

theorem units?_ofUnits_of_isFinite {u : Int} (h : (ofUnits u).isFinite = true) :
    (ofUnits u).units? = some (rounded u) := by
  rw [ofUnits] at h ⊢
  split
  · next hu =>
    rw [hu, units?_zero]
    rfl
  · next hu =>
    rw [if_neg hu, ofRatio] at h
    rw [ofRatio]
    split
    · rfl
    · next hno =>
      rw [dif_neg hno] at h
      cases h

theorem isFinite_ofUnits {u : Int} (h : Representable (roundRatio u.natAbs 1)) :
    (ofUnits u).isFinite = true := by
  rw [ofUnits]
  split
  · rfl
  · exact isFinite_ofRatio h

variable {x y : Binary64} {m n k t : Nat}

theorem exists_units (hx : x.isFinite = true) :
    ∃ u, x.units? = some u ∧ Representable u.natAbs := by
  cases x with
  | infinite => cases hx
  | nan => cases hx
  | finite negative m hm =>
    refine ⟨_, rfl, ?_⟩
    rwa [natAbs_signed]

theorem units?_add_signed {negative : Bool} (hx : x.units? = some (signed negative m))
    (hy : y.units? = some (signed negative n)) (h : Representable (roundRatio (m + n) 1)) :
    (x.add y).units? = some (signed negative (roundRatio (m + n) 1)) := by
  rw [units?_add hx hy, ← signed_add, units?_ofUnits_of_isFinite, rounded_signed]
  apply isFinite_ofUnits
  rwa [natAbs_signed]

section Span

theorem roundRatio_add_span (hm : OnGrid m) (hk : k < 2 ^ t) (h : 2 ^ (53 + t) * one ≤ m) :
    roundRatio (m + k * one) 1 = m := by
  obtain ⟨s, hs⟩ : ∃ s, one = 2 ^ s := ⟨1074, one_eq⟩
  have hspan : k * one < 2 ^ t * one := Nat.mul_lt_mul_of_pos_right hk one_pos
  have hspacing : s + (t + 1) ≤ spacing m := by
    rw [hs] at h
    exact le_spacing_of_mul_le (k := t + 1) (by rwa [show 52 + (t + 1) = 53 + t by omega])
  have hstep : 2 * (2 ^ t * one) ≤ 2 ^ spacing m := by
    calc 2 * (2 ^ t * one) = 2 ^ (s + (t + 1)) := by rw [hs, ← pow_add, ← pow_succ']; ring_nf
      _ ≤ 2 ^ spacing m := Nat.pow_le_pow_right (by decide) hspacing
  rw [roundRatio_add hm (by omega), if_neg (by omega)]

theorem lt_roundRatio_add_span (hk : 2 ^ t < 2 * k) (h : m < 2 ^ (53 + t) * one) :
    m < roundRatio (m + k * one) 1 := by
  obtain ⟨s, hs⟩ : ∃ s, one = 2 ^ s := ⟨1074, one_eq⟩
  rcases Nat.lt_or_ge (m + k * one) (2 ^ (53 + t) * one) with hlt | hge
  · have hspacing : spacing (m + k * one) ≤ s + t := by
      rw [hs] at hlt ⊢
      exact spacing_le_of_lt_mul hlt
    have hstep : 2 ^ spacing (m + k * one) ≤ 2 ^ t * one := by
      calc 2 ^ spacing (m + k * one) ≤ 2 ^ (s + t) := Nat.pow_le_pow_right (by decide) hspacing
        _ = 2 ^ t * one := by rw [hs, Nat.add_comm, pow_add]
    have hspan : 2 ^ t * one < 2 * k * one := Nat.mul_lt_mul_of_pos_right hk one_pos
    have hround := two_mul_le_roundRatio (m + k * one)
    rw [Nat.mul_assoc] at hspan
    omega
  · -- the sum is in the next binade, whose first number is on the grid
    have hgrid : OnGrid (2 ^ (53 + t) * one) := by
      rw [hs, ← pow_add]
      exact onGrid_two_pow _
    exact Nat.lt_of_lt_of_le h (le_roundRatio hgrid hge)

theorem representable_add_span (hm : Representable m) (hk : k < 2 ^ t) (ht : t ≤ 900) :
    Representable (roundRatio (m + k * one) 1) := by
  rcases Nat.lt_or_ge m (2 ^ (53 + t) * one) with hlt | hge
  · have hspan : k * one < 2 ^ t * one := Nat.mul_lt_mul_of_pos_right hk one_pos
    have hpow : 2 ^ (54 + t) * one = 2 * (2 ^ (53 + t) * one) := by
      rw [← Nat.mul_assoc, ← pow_succ']
      ring_nf
    have hless : 2 ^ t * one ≤ 2 ^ (53 + t) * one :=
      Nat.mul_le_mul_right _ (Nat.pow_le_pow_right (by decide) (by omega))
    have hgrid : OnGrid (2 ^ (54 + t) * one) := by
      rw [one_eq, ← pow_add]
      exact onGrid_two_pow _
    have hlimit : 2 ^ (54 + t) * one < limit := by
      obtain ⟨l, hl, hlimit⟩ : ∃ l, 2098 ≤ l ∧ limit = 2 ^ l := ⟨2098, le_rfl, limit_eq⟩
      rw [one_eq, hlimit, ← pow_add]
      exact Nat.pow_lt_pow_right (by decide) (by omega)
    have hround := roundRatio_le hgrid (n := m + k * one) (by omega)
    exact representable_roundRatio (by omega) (by omega)
  · rwa [roundRatio_add_span hm.onGrid hk hge]

theorem units?_add_span {negative : Bool} (hm : Representable m)
    (hx : x.units? = some (signed negative m)) (hy : y.units? = some (signed negative (k * one)))
    (hlow : 2 ^ t < 2 * k) (hhigh : k < 2 ^ t) (ht : t ≤ 900) :
    ∃ n, (x.add y).units? = some (signed negative n) ∧ (m < n ↔ m < 2 ^ (53 + t) * one) := by
  refine ⟨_, units?_add_signed hx hy (representable_add_span hm hhigh ht), ?_⟩
  constructor
  · intro hmoved
    by_contra hfar
    rw [roundRatio_add_span hm.onGrid hhigh (Nat.not_lt.mp hfar)] at hmoved
    exact absurd hmoved (lt_irrefl m)
  · exact lt_roundRatio_add_span hlow

end Span

end Binary64

namespace Number

variable {x : Binary64} {k t : Nat}

/-- A number that is not below zero rises by a span as long as it is short of the place from which
on the span is lost. -/
theorem lt_add_span_iff (hx : x.isFinite = true) (hpos : (int 0).le (float x) = true)
    (hlow : 2 ^ t < 2 * k) (hhigh : k < 2 ^ t) (ht : t ≤ 52) :
    (float x).lt ((float x).add (int k)) = true ↔
      ¬ (int (2 ^ (53 + t) : Nat)).le (float x) = true := by
  obtain ⟨u, hu, hrep⟩ := Binary64.exists_units hx
  have hplace := place?_float_eq_units_iff.mpr hu
  rw [le_iff_units (place?_int 0) hplace, Int.zero_mul] at hpos
  obtain ⟨m, rfl⟩ := Int.eq_ofNat_of_zero_le hpos
  have hsmall : k < 2 ^ 53 := Nat.lt_trans hhigh (Nat.pow_lt_pow_right (by decide) (by omega))
  have hk : (Binary64.ofInt k).units? = some (Binary64.signed false (k * Binary64.one)) := by
    rw [Binary64.units?_ofInt (by rwa [Int.natAbs_natCast]), Binary64.signed_false, Nat.cast_mul]
  rw [Int.natAbs_natCast] at hrep
  rw [← Binary64.signed_false] at hu
  obtain ⟨n, hn, hmoves⟩ := Binary64.units?_add_span hrep hu hk hlow hhigh (by omega)
  have hsum : ((float x).add (int k)).place? = some (.units n) :=
    place?_float_eq_units_iff.mpr (Binary64.signed_false n ▸ hn)
  rw [lt_iff_units hplace hsum, le_iff_units (place?_int _) hplace, ← Nat.cast_mul, Nat.cast_le,
    Nat.not_le, Nat.cast_lt]
  exact hmoves

theorem add_span_lt_iff (hx : x.isFinite = true) (hneg : (float x).le (int 0) = true)
    (hlow : 2 ^ t < 2 * k) (hhigh : k < 2 ^ t) (ht : t ≤ 52) :
    ((float x).add (int (-k))).lt (float x) = true ↔
      ¬ (float x).le (int (-(2 ^ (53 + t) : Nat))) = true := by
  obtain ⟨u, hu, hrep⟩ := Binary64.exists_units hx
  have hplace := place?_float_eq_units_iff.mpr hu
  rw [le_iff_units hplace (place?_int 0), Int.zero_mul] at hneg
  obtain ⟨m, rfl⟩ := Int.exists_eq_neg_ofNat hneg
  have hsmall : k < 2 ^ 53 := Nat.lt_trans hhigh (Nat.pow_lt_pow_right (by decide) (by omega))
  have hk : (Binary64.ofInt (-k)).units? = some (Binary64.signed true (k * Binary64.one)) := by
    rw [Binary64.units?_ofInt (by rwa [Int.natAbs_neg, Int.natAbs_natCast]), Binary64.signed_true,
      Nat.cast_mul, Int.neg_mul]
  rw [Int.natAbs_neg, Int.natAbs_natCast] at hrep
  rw [← Binary64.signed_true] at hu
  obtain ⟨n, hn, hmoves⟩ := Binary64.units?_add_span hrep hu hk hlow hhigh (by omega)
  have hsum : ((float x).add (int (-k))).place? = some (.units (-n)) :=
    place?_float_eq_units_iff.mpr (Binary64.signed_true n ▸ hn)
  rw [lt_iff_units hsum hplace, le_iff_units hplace (place?_int _), Int.neg_mul, ← Nat.cast_mul,
    neg_le_neg_iff, neg_lt_neg_iff, Nat.cast_le, Nat.not_le, Nat.cast_lt]
  exact hmoves

end Number

end GraphBlock
