import GraphBlock.Proofs.Number.Numeral

namespace GraphBlock.Binary64

theorem pos_five_pow : 0 < 5 ^ 1074 := by decide +kernel

theorem one_mul_five_pow : one * 5 ^ 1074 = 10 ^ 1074 := by decide +kernel

theorem readsBack_iff {m n : Nat} : readsBack m n = true ↔ roundRatio n (5 ^ 1074) = m :=
  beq_iff_eq

theorem reads_of_nearer? {n step low c : Nat} {p : Nat → Bool}
    (h : nearer? n step low (p (low * step)) (p ((low + 1) * step)) = some c) :
    p (c * step) = true := by
  generalize hlow : p (low * step) = a at h
  generalize hhigh : p ((low + 1) * step) = b at h
  match a, b with
  | false, false => cases h
  | true, false =>
    cases h
    exact hlow
  | false, true =>
    cases h
    exact hhigh
  | true, true =>
    rw [nearer?] at h
    split at h
    · cases h
      exact hlow
    · cases h
      exact hhigh

/-- The search ends at a decimal that reads back, at the latest at the exact one. -/
theorem readsBack_shortestFrom {m : Nat} (hm : Representable m) (place tries : Nat) :
    readsBack m ((shortestFrom m place tries).1 * 10 ^ (shortestFrom m place tries).2) = true := by
  rw [shortestFrom]
  cases hfound : (List.range tries).findSome? fun i =>
      (onGrid? m (place - i)).map (·, place - i) with
  | none =>
    rw [Option.getD_none, pow_zero, Nat.mul_one, readsBack_iff, scaled]
    exact roundRatio_mul_self pos_five_pow hm.2
  | some found =>
    obtain ⟨i, -, hi⟩ := List.exists_of_findSome?_eq_some hfound
    obtain ⟨c, hc, hpair⟩ := Option.map_eq_some_iff.mp hi
    rw [Option.getD_some, ← hpair]
    exact reads_of_nearer? (p := readsBack m) hc

theorem isDigit_of_mem_trimBy {t : Text} {c : Char} (ht : ∀ c ∈ t, c.isDigit = true)
    (hc : c ∈ Text.trimBy (· == '0') t) : c.isDigit = true := by
  obtain ⟨a, b, -, -, heq⟩ := Text.exists_pad (· == '0') t
  apply ht
  rw [heq]
  exact List.mem_append_left _ (List.mem_append_right _ hc)

theorem natText_eq_trimBy {c : Nat} (hc : 0 < c) :
    ∃ z, natText c = Text.trimBy (· == '0') (natText c) ++ List.replicate z '0' := by
  obtain ⟨a, b, ha, hb, heq⟩ := Text.exists_pad (· == '0') (natText c)
  have hnil : a = [] := by
    cases a with
    | nil => rfl
    | cons d a =>
      have hd : d = '0' := by simpa using ha d List.mem_cons_self
      have hhead : d ∈ (natText c).head? := by
        rw [heq]
        rfl
      exact absurd hd (head?_natText hc d hhead)
  have hzeros : b = List.replicate b.length '0' :=
    List.eq_replicate_iff.mpr ⟨rfl, fun d hd => by simpa using hb d hd⟩
  rw [hnil, List.nil_append] at heq
  exact ⟨b.length, by rw [← hzeros]; exact heq⟩

theorem toBinary64_eq_finite {negative : Bool} {m c place : Nat} (hm : Representable m)
    (hback : readsBack m (c * 10 ^ place) = true) {t : Text} {e : Int} {z k : Nat} {d : Nat}
    (ht : ∀ x ∈ t, x.isDigit = true) (hvalue : digitsValue t = d * 10 ^ k) (hc : c = d * 10 ^ z)
    (he : e = z + place - 1074 - k) :
    Decimal.toBinary64 negative ⟨digitValues t, e⟩ = finite negative m hm := by
  have hround : ofRatio negative (c * 10 ^ place) (5 ^ 1074) = finite negative m hm := by
    have h := readsBack_iff.mp hback
    simp only [ofRatio, h, dif_pos hm]
  obtain ⟨five, n, hn, hfive, hone, hgrid⟩ : ∃ five n : Nat, n = 1074 ∧ 0 < five ∧
      one * five = 10 ^ n ∧ five = 5 ^ 1074 :=
    ⟨_, _, rfl, pos_five_pow, one_mul_five_pow, rfl⟩
  rw [← hgrid] at hround
  rw [Decimal.toBinary64_eq_ofRatio (digitValues_lt ht), significand_digitValues, hvalue, ← hround]
  apply ofRatio_congr (Nat.pow_pos (by decide)) hfive
  have hexp : k + e.toNat + n = z + place + (-e).toNat := by omega
  calc d * 10 ^ k * 10 ^ e.toNat * one * five
      = d * 10 ^ k * 10 ^ e.toNat * 10 ^ n := by rw [Nat.mul_assoc _ one, hone]
    _ = d * 10 ^ (k + e.toNat + n) := by rw [pow_add, pow_add]; ring
    _ = d * 10 ^ (z + place + (-e).toNat) := by rw [hexp]
    _ = c * 10 ^ place * 10 ^ (-e).toNat := by rw [hc, pow_add, pow_add]; ring

theorem pos_of_readsBack {m c place : Nat} (hm : m ≠ 0)
    (hback : readsBack m (c * 10 ^ place) = true) : 0 < c := by
  apply Nat.pos_of_ne_zero
  intro hc
  rw [readsBack_iff, hc, Nat.zero_mul, roundRatio_eq_zero (Nat.mul_zero 2 ▸ pos_five_pow)] at hback
  exact hm hback.symm

theorem exists_shortest {m : Nat} (hm : Representable m) (hne : m ≠ 0) :
    ∃ c place, 0 < c ∧ readsBack m (c * 10 ^ place) = true ∧
      shortest m =
        (Text.trimBy (· == '0') (natText c),
          (((natText c).length + place : Nat) - 1075 : Int)) := by
  have hback := readsBack_shortestFrom hm ((natText (scaled m)).length - 1) 17
  exact ⟨_, _, pos_of_readsBack hne hback, hback, rfl⟩

theorem trimBy_natText_ne_nil {c : Nat} (hc : 0 < c) : Text.trimBy (· == '0') (natText c) ≠ [] := by
  intro hnil
  obtain ⟨d, t, hd⟩ := List.exists_cons_of_ne_nil (natText_ne_nil (n := c))
  have hzero : d = '0' := by
    simpa using Text.trimBy_eq_nil_iff.mp hnil d (by rw [hd]; exact List.mem_cons_self)
  exact head?_natText hc d (by rw [hd]; rfl) hzero

def magnitudeText (m : Nat) : Text :=
  if m = 0 then "0.0" else layout.write (shortest m).1 (shortest m).2

theorem text_finite {negative : Bool} {m : Nat} (hm : Representable m) :
    (finite negative m hm).text = withSign negative (magnitudeText m) := rfl

theorem numeral_magnitudeText {m : Nat} (hm : Representable m) : Numeral (magnitudeText m) := by
  by_cases hne : m = 0
  · rw [magnitudeText, if_pos hne]
    exact Numeral.of_point (a := ['0']) (b := ['0']) (by simp) (by simp) (by simp) (by simp)
  · obtain ⟨c, place, hc, -, hshortest⟩ := exists_shortest hm hne
    rw [magnitudeText, if_neg hne, hshortest]
    exact Numeral.write layout rfl _ (fun x => isDigit_of_mem_trimBy isDigit_natText)
      (trimBy_natText_ne_nil hc)

theorem read?_magnitudeText {negative : Bool} {m : Nat} (hm : Representable m) :
    (Decimal.read? (magnitudeText m)).map (Decimal.toBinary64 negative) =
      some (finite negative m hm) := by
  by_cases hne : m = 0
  · subst hne
    rfl
  · obtain ⟨c, place, hc, hback, hshortest⟩ := exists_shortest hm hne
    obtain ⟨z, hz⟩ := natText_eq_trimBy hc
    rw [magnitudeText, if_neg hne, hshortest]
    generalize Text.trimBy (· == '0') (natText c) = ds at hz ⊢
    have hds : ∀ x ∈ ds, x.isDigit = true := by
      intro x hx
      exact isDigit_natText (n := c) x (by rw [hz]; exact List.mem_append_left _ hx)
    have hvalue : c = digitsValue ds * 10 ^ z := by
      conv_lhs => rw [← digitsValue_natText c, hz, digitsValue_append]
      simp
    have hlength : (natText c).length = ds.length + z := by
      rw [hz, List.length_append, List.length_replicate]
    have hnil : ds ≠ [] := by
      intro hnil
      rw [hnil] at hvalue
      simp [digitsValue] at hvalue
      omega
    have hwritten : Layout.ReadsAs (layout.write ds (((natText c).length + place : Nat) - 1075)) ds
        (((natText c).length + place : Nat) - 1075) := Layout.readsAs_write layout rfl hds hnil
    obtain ⟨t, k, ht, hdigits, hread⟩ := hwritten
    rw [hread, Option.map_some, toBinary64_eq_finite hm hback ht hdigits hvalue (by omega)]

theorem read?_text {x : Binary64} (hx : x.isFinite = true) : read? x.text = some x := by
  cases x with
  | finite negative m hm =>
    rw [text_finite, read?_withSign (numeral_magnitudeText hm), read?_magnitudeText hm]
  | infinite => cases hx
  | nan => cases hx

theorem read?_natText {negative : Bool} (n : Nat) :
    read? (withSign negative (natText n)) = some (ofRatio negative (n * one) 1) := by
  have hread : Decimal.read? (natText n) = some ⟨digitValues (natText n), 0⟩ := by
    have := Decimal.read?_whole (a := natText n) isDigit_natText natText_ne_nil
      Layout.endsDigits_nil (by simp)
    rwa [List.append_nil] at this
  have hdigits : ∀ d ∈ (Decimal.mk (digitValues (natText n)) 0).digits, d < 10 :=
    digitValues_lt isDigit_natText
  rw [read?_withSign (Numeral.natText n), hread, Option.map_some,
    Decimal.toBinary64_eq_ofRatio hdigits, significand_digitValues, digitsValue_natText]
  simp only [Int.toNat_zero, neg_zero, pow_zero, Nat.mul_one]

theorem intText_eq (n : Int) : intText n = withSign (n < 0) (natText n.natAbs) := by
  cases n with
  | ofNat n => rfl
  | negSucc n => simp [intText, withSign, Int.negSucc_lt_zero]

theorem read?_intText (n : Int) : read? (intText n) = some (ofInt n) := by
  rw [intText_eq, read?_natText, ofInt]

end GraphBlock.Binary64
