import GraphBlock.Number.Shortest
import GraphBlock.Proofs.Number.Digits
import GraphBlock.Proofs.Number.Rounding

namespace GraphBlock.Decimal

theorem significand_append (a b : List Nat) (e : Int) :
    significand ⟨a ++ b, e⟩ = significand ⟨a, e⟩ * 10 ^ b.length + significand ⟨b, e⟩ := by
  have hfold (n : Nat) : ∀ l : List Nat, l.foldl (fun n digit => 10 * n + digit) n =
      n * 10 ^ l.length + l.foldl (fun n digit => 10 * n + digit) 0 := by
    intro l
    induction l generalizing n with
    | nil => simp
    | cons d l ih =>
      rw [List.foldl_cons, List.foldl_cons, ih, ih (10 * 0 + d), List.length_cons, pow_succ]
      ring
  rw [significand, List.foldl_append, hfold]
  rfl

theorem significand_lt {l : List Nat} (e : Int) (hl : ∀ d ∈ l, d < 10) :
    significand ⟨l, e⟩ < 10 ^ l.length := by
  induction l using List.reverseRecOn with
  | nil => simp [significand]
  | append_singleton l d ih =>
    have ih := ih fun c hc => hl c (List.mem_append_left _ hc)
    have hd := hl d (by simp)
    have hone : significand ⟨[d], e⟩ = d := by simp [significand]
    calc significand ⟨l ++ [d], e⟩
        = significand ⟨l, e⟩ * 10 + d := by rw [significand_append, hone]; rfl
      _ < 10 ^ l.length * 10 := by omega
      _ = 10 ^ (l ++ [d]).length := by rw [List.length_append, List.length_singleton, pow_succ]

theorem significand_dropWhile (l : List Nat) (e : Int) :
    significand ⟨l.dropWhile (· = 0), e⟩ = significand ⟨l, e⟩ := by
  induction l with
  | nil => rfl
  | cons d l ih =>
    by_cases hd : d = 0
    · subst hd
      rw [List.dropWhile_cons_of_pos (by simp), ih]
      simp [significand]
    · rw [List.dropWhile_cons_of_neg (by simpa using hd)]

theorem significand_bounds {l : List Nat} (e : Int) (hl : ∀ d ∈ l, d < 10)
    (hpos : significand ⟨l, e⟩ ≠ 0) :
    ∃ k, (l.dropWhile (· = 0)).length = k + 1 ∧ 10 ^ k ≤ significand ⟨l, e⟩ ∧
      significand ⟨l, e⟩ < 10 ^ (k + 1) := by
  have hlow := significand_lt e fun d hd => hl d ((List.dropWhile_sublist (· = 0)).subset hd)
  have hsame := significand_dropWhile l e
  cases hdrop : l.dropWhile (· = 0) with
  | nil =>
    rw [hdrop] at hsame
    exact absurd hsame.symm hpos
  | cons d r =>
    rw [hdrop] at hlow hsame
    have hd : d ≠ 0 := by
      have := List.head?_dropWhile_not (fun d : Nat => decide (d = 0)) l
      rw [hdrop] at this
      simpa using this
    have hhead : 10 ^ r.length ≤ significand ⟨[d] ++ r, e⟩ := by
      have hone : significand ⟨[d], e⟩ = d := by simp [significand]
      rw [significand_append, hone]
      exact Nat.le_add_right_of_le (Nat.le_mul_of_pos_left _ (Nat.pos_of_ne_zero hd))
    rw [hsame] at hlow
    rw [List.singleton_append, hsame] at hhead
    exact ⟨r.length, rfl, hhead, by simpa using hlow⟩

/-- A decimal of so low an order is less than half of every float. -/
theorem significand_mul_lt {d : Decimal} (hd : ∀ c ∈ d.digits, c < 10)
    (hpos : d.significand ≠ 0) (horder : d.order < -400) :
    2 * (d.significand * 10 ^ d.exponent.toNat * Binary64.one) < 10 ^ (-d.exponent).toNat := by
  obtain ⟨l, e⟩ := d
  obtain ⟨k, hk, -, hlt⟩ := significand_bounds e hd hpos
  have horder : ((k + 1 : Nat) : Int) + e < -400 := by
    rw [← hk]
    exact horder
  have hmany : 10 ^ (k + 1) * 10 ^ 401 ≤ 10 ^ (-e).toNat := by
    rw [← pow_add]
    exact Nat.pow_le_pow_right (by decide) (by omega)
  have hone : 2 * Binary64.one ≤ 10 ^ 401 := by decide +kernel
  have hexp : e.toNat = 0 := by omega
  have honePos := Binary64.one_pos
  simp only [hexp, pow_zero, Nat.mul_one]
  calc 2 * (significand ⟨l, e⟩ * Binary64.one)
      = significand ⟨l, e⟩ * (2 * Binary64.one) := by ring
    _ < 10 ^ (k + 1) * (2 * Binary64.one) := Nat.mul_lt_mul_of_pos_right hlt (by omega)
    _ ≤ 10 ^ (k + 1) * 10 ^ 401 := Nat.mul_le_mul_left _ hone
    _ ≤ 10 ^ (-e).toNat := hmany

theorem limit_mul_le {d : Decimal} (hd : ∀ c ∈ d.digits, c < 10) (hpos : d.significand ≠ 0)
    (horder : 400 < d.order) :
    Binary64.limit * 10 ^ (-d.exponent).toNat ≤
      d.significand * 10 ^ d.exponent.toNat * Binary64.one := by
  obtain ⟨l, e⟩ := d
  obtain ⟨k, hk, hge, -⟩ := significand_bounds e hd hpos
  have horder : 400 < ((k + 1 : Nat) : Int) + e := by
    rw [← hk]
    exact horder
  have hmany : 10 ^ 400 * 10 ^ (-e).toNat ≤ 10 ^ k * 10 ^ e.toNat := by
    rw [← pow_add, ← pow_add]
    exact Nat.pow_le_pow_right (by decide) (by omega)
  calc Binary64.limit * 10 ^ (-e).toNat
      ≤ Binary64.one * 10 ^ 400 * 10 ^ (-e).toNat := Nat.mul_le_mul_right _ Binary64.limit_le
    _ = 10 ^ 400 * 10 ^ (-e).toNat * Binary64.one := by
      rw [Nat.mul_comm Binary64.one, Nat.mul_right_comm]
    _ ≤ 10 ^ k * 10 ^ e.toNat * Binary64.one := Nat.mul_le_mul_right _ hmany
    _ ≤ significand ⟨l, e⟩ * 10 ^ e.toNat * Binary64.one :=
      Nat.mul_le_mul_right _ (Nat.mul_le_mul_right _ hge)

theorem toBinary64_eq_ofRatio {negative : Bool} {d : Decimal} (hd : ∀ c ∈ d.digits, c < 10) :
    d.toBinary64 negative =
      .ofRatio negative (d.significand * 10 ^ d.exponent.toNat * Binary64.one)
        (10 ^ (-d.exponent).toNat) := by
  have hden : 0 < 10 ^ (-d.exponent).toNat := Nat.pow_pos (by decide)
  rw [toBinary64]
  split
  · next hsmall =>
    symm
    apply Binary64.ofRatio_eq_zero
    by_cases hzero : d.significand = 0
    · rw [hzero, Nat.zero_mul, Nat.zero_mul, Nat.mul_zero]
      exact hden
    · exact significand_mul_lt hd hzero (hsmall.resolve_left hzero)
  · next hsmall =>
    split
    · next hlarge =>
      exact (Binary64.ofRatio_eq_infinite hden
        (limit_mul_le hd (fun h => hsmall (.inl h)) hlarge)).symm
    · rfl

section Layout

variable {a b tail : Text}

theorem read?_whole (ha : ∀ c ∈ a, c.isDigit = true) (hne : a ≠ []) (htail : Text.EndsDigits tail)
    (hpoint : ∀ c ∈ tail.head?, c ≠ '.') :
    read? (a ++ tail) = (exponent? tail).map fun e => ⟨digitValues a, e⟩ := by
  have hsome : digitValues a ≠ [] := by simpa [digitValues] using hne
  rw [read?, Text.digits_append ha htail]
  cases tail with
  | nil => simp [digitValues, hne]
  | cons c t =>
    have hc : c ≠ '.' := hpoint c rfl
    split
    · next u hu =>
      injection hu with h
      exact absurd h hc
    · simp [digitValues, hne]

theorem read?_fraction (ha : ∀ c ∈ a, c.isDigit = true) (hne : a ≠ [])
    (hb : ∀ c ∈ b, c.isDigit = true) (htail : Text.EndsDigits tail) :
    read? (a ++ '.' :: (b ++ tail)) =
      (exponent? tail).map fun e => ⟨digitValues (a ++ b), e - b.length⟩ := by
  have hends : Text.EndsDigits ('.' :: (b ++ tail)) := by
    rintro c ⟨⟩
    decide
  rw [read?, Text.digits_append ha hends]
  simp only [Text.digits_append hb htail]
  simp [digitValues, hne]

def exponentPart (e : Int) (t : Text) : Text := 'e' :: (if e < 0 then '-' else '+') :: t

theorem endsDigits_exponentPart (e : Int) (t : Text) : Text.EndsDigits (exponentPart e t) := by
  rintro c ⟨⟩
  decide

theorem exponent?_exponentPart {e : Int} {t : Text} (ht : ∀ c ∈ t, c.isDigit = true) (hne : t ≠ [])
    (hvalue : digitsValue t = e.natAbs) : exponent? (exponentPart e t) = some e := by
  have hdigits : Text.digits t = (digitValues t, []) := by
    have hends : Text.EndsDigits [] := by rintro c ⟨⟩
    have := Text.digits_append ht hends
    rwa [List.append_nil] at this
  have hsome : ∃ d ds, digitValues t = d :: ds :=
    List.exists_cons_of_ne_nil (by simpa [digitValues] using hne)
  have hsig : significand ⟨digitValues t, 0⟩ = e.natAbs := by
    rw [← hvalue]
    exact significand_digitValues t 0
  obtain ⟨d, ds, hds⟩ := hsome
  by_cases he : e < 0
  · simp only [exponentPart, exponent?, if_pos he, Text.sign, hdigits, hds, hds ▸ hsig,
      true_or, if_true, Option.some.injEq]
    omega
  · simp only [exponentPart, exponent?, if_neg he, Text.sign, hdigits, hds, hds ▸ hsig,
      true_or, Bool.false_eq_true, if_true, if_false, Option.some.injEq]
    omega

theorem isDigit_padded {width n : Nat} : ∀ c ∈ Layout.padded width n, c.isDigit = true := by
  intro c hc
  rcases List.mem_append.mp hc with hc | hc
  · rw [(List.mem_replicate.mp hc).2]
    rfl
  · exact isDigit_natText c hc

theorem digitsValue_padded (width n : Nat) : digitsValue (Layout.padded width n) = n := by
  simp [Layout.padded, digitsValue_append]

theorem padded_ne_nil (width n : Nat) : Layout.padded width n ≠ [] := by
  simp [Layout.padded, natText_ne_nil]

end Layout

end GraphBlock.Decimal
