import GraphBlock.Proofs.Number.Rounding

/-!
Numbers at one place of the line. An integer and a float can stand at the same place, and so can the
two zeros; comparisons and sums do not tell them apart.
-/

namespace GraphBlock

namespace Binary64

theorem signed_inj {a b : Bool} {m n : Nat} (h : signed a m = signed b n) :
    m = n ∧ (m ≠ 0 → a = b) := by
  cases a <;> cases b <;> simp only [signed, if_true, Bool.false_eq_true, if_false] at h
  · exact ⟨by omega, fun _ => rfl⟩
  · exact ⟨by omega, fun hm => by omega⟩
  · exact ⟨by omega, fun hm => by omega⟩
  · exact ⟨by omega, fun _ => rfl⟩

theorem signed_natAbs (n : Int) : signed (n < 0) n.natAbs = n := by
  by_cases hn : n < 0
  · simp only [signed, hn, decide_true, if_true, Int.natCast_natAbs, abs_of_neg hn, neg_neg]
  · simp only [signed, hn, decide_false, Bool.false_eq_true, if_false, Int.natCast_natAbs,
      abs_of_nonneg (Int.not_lt.mp hn)]

theorem signed_mul_one (n : Int) : signed (n < 0) (n.natAbs * one) = n * one := by
  by_cases hn : n < 0
  · simp only [signed, hn, decide_true, if_true, Int.natCast_mul, Int.natCast_natAbs, abs_of_neg hn]
    ring
  · simp only [signed, hn, decide_false, Bool.false_eq_true, if_false, Int.natCast_mul,
      Int.natCast_natAbs, abs_of_nonneg (Int.not_lt.mp hn)]

theorem units?_ofInt {n : Int} (hn : n.natAbs < 2 ^ 53) : (ofInt n).units? = some (n * one) := by
  rw [ofInt_eq hn, units?, signed_mul_one]

theorem toInt?_eq_some_iff {x : Binary64} {n : Int} :
    x.toInt? = some n ↔ x.units? = some (n * one) := by
  have hone : (one : Int) ≠ 0 := Int.natCast_ne_zero.mpr one_pos.ne'
  rw [toInt?]
  cases hu : x.units? with
  | none => simp only [reduceCtorEq]
  | some u =>
    simp only [Option.ite_none_right_eq_some, Option.some.injEq]
    constructor
    · intro h
      rw [← h.2, Int.ediv_mul_cancel (Int.dvd_of_emod_eq_zero h.1)]
    · intro h
      rw [h]
      exact ⟨Int.mul_emod_left n one, Int.mul_ediv_cancel n hone⟩

theorem isFinite_of_units? {x : Binary64} {u : Int} (h : x.units? = some u) :
    x.isFinite = true := by
  cases x with
  | finite => rfl
  | infinite => cases h
  | nan => cases h

def ofUnits (u : Int) : Binary64 := if u = 0 then zero false else ofRatio (u < 0) u.natAbs 1

theorem units?_zero (negative : Bool) : (zero negative).units? = some 0 := by
  cases negative <;> rfl

theorem units?_add {x y : Binary64} {u v : Int} (hx : x.units? = some u) (hy : y.units? = some v) :
    (x.add y).units? = (ofUnits (u + v)).units? := by
  cases x with
  | infinite => cases hx
  | nan => cases hx
  | finite a m hm =>
    cases y with
    | infinite => cases hy
    | nan => cases hy
    | finite b n hn =>
      cases hx
      cases hy
      rw [add, ofUnits]
      split
      · rw [units?_zero, units?_zero]
      · rfl

theorem units?_ofUnits {u : Int} (h : Representable u.natAbs) : (ofUnits u).units? = some u := by
  rw [ofUnits]
  split
  · next hu => rw [units?_zero, hu]
  · rw [ofRatio_one h, units?, signed_natAbs]

theorem units?_ofUnits_mul_one {n : Int} (hn : n.natAbs < 2 ^ 53) :
    (ofUnits (n * one)).units? = some (n * one) := by
  apply units?_ofUnits
  rw [Int.natAbs_mul, Int.natAbs_natCast]
  exact representable_mul_one hn

theorem units?_ofInt_of_toInt? {x : Binary64} {n : Int} (h : x.toInt? = some n) :
    (ofInt n).units? = some (n * one) := by
  have hu := toInt?_eq_some_iff.mp h
  cases x with
  | infinite => cases hu
  | nan => cases hu
  | finite negative m hm =>
    have hsigned : signed negative m = signed (n < 0) (n.natAbs * one) := by
      rw [signed_mul_one]
      exact Option.some.inj hu
    obtain ⟨hmagnitude, -⟩ := signed_inj hsigned
    rw [ofInt, ofRatio_one (hmagnitude ▸ hm), units?, signed_mul_one]

theorem exists_half : ∃ h, 2 * h = one ∧ (∀ n < 2 ^ 53, Representable (n * h)) ∧
    half.units? = some (h : Int) := by
  obtain ⟨k, hk, hone⟩ : ∃ k, k ≤ 2045 ∧ 2 * 2 ^ k = one :=
    ⟨1073, by decide, by rw [one_eq, ← pow_succ']⟩
  have hrep : ∀ n < 2 ^ 53, Representable (n * 2 ^ k) := by
    intro n hn
    exact representable_mul_pow hn hk
  refine ⟨2 ^ k, hone, hrep, ?_⟩
  have hself : Representable (2 ^ k) := Nat.one_mul (2 ^ k) ▸ hrep 1 (by decide)
  rw [half, ofRatio_congr (c := 2 ^ k) (d := 1) (by decide) (by decide) (by omega),
    ofRatio_one hself]
  rfl

theorem isFinite_ofRatio {negative : Bool} {n : Nat} (h : Representable (roundRatio n 1)) :
    (ofRatio negative n 1).isFinite = true := by
  rw [ofRatio, dif_pos h]
  rfl

theorem isFinite_add_half {x : Binary64} (hx : x.isFinite = true) :
    (x.add half).isFinite = true := by
  obtain ⟨h, hone, -, hhalf⟩ := exists_half
  cases x with
  | infinite => cases hx
  | nan => cases hx
  | finite negative m hm =>
    cases hvalue : half with
    | infinite => rw [hvalue] at hhalf; cases hhalf
    | nan => rw [hvalue] at hhalf; cases hhalf
    | finite b k hk =>
      rw [hvalue] at hhalf
      have hk : signed b k = h := Option.some.inj hhalf
      rw [add, hk]
      split
      · rfl
      · have hbound : (signed negative m + h : Int).natAbs ≤ m + h := by
          rw [signed]
          split <;> omega
        have hend := hm.add_greatestStep_le
        have hsmall := one_lt_greatestStep
        have hbelow : (signed negative m + h : Int).natAbs < limit := by omega
        have hround := two_mul_roundRatio_le (signed negative m + h : Int).natAbs
        have hstep := two_pow_spacing_le hbelow
        exact isFinite_ofRatio (representable_roundRatio hbelow (by omega))

theorem floor?_add_half {n : Int} (hn : n.natAbs < 2 ^ 50) :
    ((ofInt n).add half).floor? = some n := by
  obtain ⟨h, hone, hrep, hhalf⟩ := exists_half
  have honePos := one_pos
  have hsum : (n * one + h : Int) = (2 * n + 1) * h := by
    rw [← hone]
    push_cast
    ring
  have hunits := units?_add (units?_ofInt (n := n) (by omega)) hhalf
  have hexact : Representable (n * one + h : Int).natAbs := by
    rw [hsum, Int.natAbs_mul, Int.natAbs_natCast]
    exact hrep _ (by omega)
  rw [units?_ofUnits hexact] at hunits
  have hfraction : (h : Int) / one = 0 := Int.ediv_eq_zero_of_lt (by omega) (by omega)
  have hfloor : (n * one + h : Int) / one = n := by
    calc (n * one + h : Int) / one
        = (h + n * one) / one := by rw [Int.add_comm]
      _ = h / one + n := Int.add_mul_ediv_right _ _ (by omega)
      _ = n := by rw [hfraction, Int.zero_add]
  rw [floor?, hunits, Option.map_some, hfloor]

end Binary64

namespace Place

theorem le_trans {p q r : Place} (hpq : p.le q = true) (hqr : q.le r = true) : p.le r = true := by
  cases p <;> cases q <;> cases r <;> simp_all [le]
  omega

end Place

namespace Number

variable {a b c d : Number} {u v : Int}

/-- Numbers at the same place, or neither of them a number. -/
def Same (a b : Number) : Prop := a.place? = b.place?

theorem Same.refl (a : Number) : Same a a := rfl

theorem Same.le_eq (hab : Same a b) (hcd : Same c d) : a.le c = b.le d := by
  rw [le, le, hab, hcd]

theorem Same.lt_eq (hab : Same a b) (hcd : Same c d) : a.lt c = b.lt d := by
  rw [lt, lt, hab, hcd]

theorem place?_float_eq_units_iff {x : Binary64} {u : Int} :
    (float x).place? = some (.units u) ↔ x.units? = some u := by
  cases x with
  | finite => simp [place?, Binary64.units?]
  | infinite negative => cases negative <;> simp [place?, Binary64.units?]
  | nan => simp [place?, Binary64.units?]

theorem place?_int (n : Int) : (int n).place? = some (.units (n * Binary64.one)) := rfl

theorem le_iff_units (ha : a.place? = some (.units u)) (hb : b.place? = some (.units v)) :
    a.le b = true ↔ u ≤ v := by
  simp only [le, ha, hb, Place.le, decide_eq_true_eq]

theorem lt_iff_units (ha : a.place? = some (.units u)) (hb : b.place? = some (.units v)) :
    a.lt b = true ↔ u < v := by
  simp only [lt, ha, hb, Place.le, Bool.not_eq_true', decide_eq_false_iff_not, Int.not_le]

theorem le_eq_true_iff :
    a.le b = true ↔ ∃ p q, a.place? = some p ∧ b.place? = some q ∧ p.le q = true := by
  rw [le]
  split
  · next p q ha hb => simp [ha, hb]
  · next hno =>
    constructor
    · intro h
      cases h
    · rintro ⟨p, q, ha, hb, -⟩
      exact absurd hb (hno p q ha)

theorem le_trans (hab : a.le b = true) (hbc : b.le c = true) : a.le c = true := by
  obtain ⟨p, q, ha, hb, hpq⟩ := le_eq_true_iff.mp hab
  obtain ⟨q', r, hb', hc, hqr⟩ := le_eq_true_iff.mp hbc
  cases hb.symm.trans hb'
  exact le_eq_true_iff.mpr ⟨p, r, ha, hc, Place.le_trans hpq hqr⟩

theorem same_int_iff {m n : Int} : Same (int m) (int n) ↔ m = n := by
  have hone : (Binary64.one : Int) ≠ 0 := Int.natCast_ne_zero.mpr Binary64.one_pos.ne'
  rw [Same, place?, place?, Option.some.injEq, Place.units.injEq]
  exact Int.mul_eq_mul_right_iff hone

theorem same_int_float_iff {n : Int} {x : Binary64} :
    Same (int n) (float x) ↔ x.toInt? = some n := by
  rw [Same, place?, Binary64.toInt?_eq_some_iff, ← place?_float_eq_units_iff, eq_comm]

theorem same_float_iff {x y : Binary64} :
    Same (float x) (float y) ↔ x = y ∨ (x.units? = some 0 ∧ y.units? = some 0) := by
  constructor
  · intro h
    cases x with
    | finite a m hm =>
      have hy := place?_float_eq_units_iff.mp h.symm
      cases y with
      | finite b n hn =>
        obtain ⟨hmn, hab⟩ := Binary64.signed_inj (Option.some.inj hy)
        subst hmn
        by_cases hzero : n = 0
        · subst hzero
          exact .inr ⟨Binary64.units?_zero a, Binary64.units?_zero b⟩
        · rw [hab hzero]
          exact .inl rfl
      | infinite => cases hy
      | nan => cases hy
    | infinite a =>
      left
      cases y with
      | finite b n hn => cases a <;> cases h
      | infinite b => cases a <;> cases b <;> first | rfl | cases h
      | nan => cases a <;> cases h
    | nan =>
      left
      cases y with
      | finite b n hn => cases h
      | infinite b => cases b <;> cases h
      | nan => rfl
  · intro h
    rcases h with rfl | ⟨hx, hy⟩
    · rfl
    · rw [Same, place?_float_eq_units_iff.mpr hx, place?_float_eq_units_iff.mpr hy]

/-- An integer that sums treat as exactly as a float does. -/
def Exact : Number → Prop
  | int n => n.natAbs < 2 ^ 50
  | float _ => True

theorem same_add_int {n k : Int} {x : Binary64} (hn : n.natAbs < 2 ^ 50) (hk : k.natAbs < 2 ^ 50)
    (h : Same (int n) (float x)) : Same ((int n).add (int k)) ((float x).add (int k)) := by
  have hx := Binary64.toInt?_eq_some_iff.mp (same_int_float_iff.mp h)
  have hfinite := Binary64.units?_ofInt (n := k) (by omega)
  have hsum := Binary64.units?_add hx hfinite
  rw [← Int.add_mul, Binary64.units?_ofUnits_mul_one (by omega)] at hsum
  exact same_int_float_iff.mpr (Binary64.toInt?_eq_some_iff.mpr hsum)

theorem same_add_float {k : Int} {x y : Binary64} (hk : k.natAbs < 2 ^ 50)
    (h : Same (float x) (float y)) : Same ((float x).add (int k)) ((float y).add (int k)) := by
  rcases same_float_iff.mp h with rfl | ⟨hx, hy⟩
  · rfl
  · have hfinite := Binary64.units?_ofInt (n := k) (by omega)
    have hsum := Binary64.units?_ofUnits_mul_one (n := k) (by omega)
    have hx := Binary64.units?_add hx hfinite
    have hy := Binary64.units?_add hy hfinite
    rw [Int.zero_add, hsum, ← place?_float_eq_units_iff] at hx hy
    exact hx.trans hy.symm

/-- Sums with a small integer do not depend on how a number is given. -/
theorem Same.add_int (hab : Same a b) (ha : a.Exact) (hb : b.Exact) {k : Int}
    (hk : k.natAbs < 2 ^ 50) : Same (a.add (int k)) (b.add (int k)) := by
  match a, b with
  | int m, int n =>
    rw [same_int_iff.mp hab]
    rfl
  | int m, float y => exact same_add_int ha hk hab
  | float x, int n => exact (same_add_int hb hk hab.symm).symm
  | float x, float y => exact same_add_float hk hab

end Number

end GraphBlock
