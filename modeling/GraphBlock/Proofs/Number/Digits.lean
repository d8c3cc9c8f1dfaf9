import GraphBlock.Number.Decimal
import GraphBlock.Number.Layout
import Mathlib.Data.List.Infix
import Mathlib.Tactic.Ring

namespace GraphBlock

theorem isDigit_iff {c : Char} : c.isDigit = true ↔ 48 ≤ c.toNat ∧ c.toNat ≤ 57 :=
  Char.isDigit_iff_toNat

theorem isDigit_natText {n : Nat} : ∀ c ∈ natText n, c.isDigit = true := fun _ h =>
  Nat.isDigit_of_mem_toDigits (by decide) (by decide) h

theorem natText_ne_nil {n : Nat} : natText n ≠ [] := Nat.toDigits_ne_nil

def digitValues (t : Text) : List Nat := t.map fun c => c.toNat - 48

theorem digitValues_lt {t : Text} (ht : ∀ c ∈ t, c.isDigit = true) :
    ∀ d ∈ digitValues t, d < 10 := by
  intro d hd
  obtain ⟨c, hc, rfl⟩ := List.mem_map.mp hd
  have := isDigit_iff.mp (ht c hc)
  omega

def digitsValue (t : Text) : Nat := Nat.ofDigitChars 10 t 0

@[simp] theorem digitsValue_natText (n : Nat) : digitsValue (natText n) = n :=
  Nat.ofDigitChars_ten_toDigits

theorem digitsValue_append (a b : Text) :
    digitsValue (a ++ b) = digitsValue a * 10 ^ b.length + digitsValue b := by
  rw [digitsValue, Nat.ofDigitChars_append, Nat.ofDigitChars_eq_ofDigitChars_zero, Nat.mul_comm]
  rfl

@[simp] theorem digitsValue_replicate (n : Nat) : digitsValue (List.replicate n '0') = 0 := by
  simp [digitsValue]

theorem digitsValue_lt {t : Text} (ht : ∀ c ∈ t, c.isDigit = true) :
    digitsValue t < 10 ^ t.length := by
  induction t using List.reverseRecOn with
  | nil => simp [digitsValue]
  | append_singleton t c ih =>
    have ih := ih fun d hd => ht d (List.mem_append_left _ hd)
    have hc := isDigit_iff.mp (ht c (by simp))
    have hone : digitsValue [c] < 10 := by
      simp only [digitsValue, Nat.ofDigitChars_cons, Nat.ofDigitChars_nil, Char.reduceToNat]
      omega
    rw [digitsValue_append, List.length_append, List.length_singleton, Nat.pow_succ]
    omega

theorem head?_natText {n : Nat} (hn : 0 < n) : ∀ c ∈ (natText n).head?, c ≠ '0' := by
  rintro c hc rfl
  obtain ⟨t, ht⟩ : ∃ t, natText n = '0' :: t := by
    cases h : natText n with
    | nil => exact absurd h natText_ne_nil
    | cons d t =>
      rw [h] at hc
      cases hc
      exact ⟨t, rfl⟩
  have hdigits : ∀ c ∈ t, c.isDigit = true := by
    intro c hc
    exact isDigit_natText (n := n) c (by rw [ht]; exact List.mem_cons_of_mem _ hc)
  have hvalue : n = digitsValue t := by
    rw [← digitsValue_natText n, ht]
    simp [digitsValue, Nat.ofDigitChars_cons]
  have hlt : n < 10 ^ t.length := hvalue ▸ digitsValue_lt hdigits
  have hlen : (natText n).length = t.length + 1 := by rw [ht, List.length_cons]
  rcases Nat.eq_zero_or_pos t.length with hzero | hpos
  · rw [hzero] at hlt
    omega
  · have := (Nat.length_toDigits_le_iff (b := 10) (by decide) hpos).mpr hlt
    rw [natText] at hlen
    omega

namespace Text

theorem digitValue?_of_isDigit {c : Char} (h : c.isDigit = true) :
    digitValue? c = some (c.toNat - 48) := by
  obtain ⟨hlow, hhigh⟩ := isDigit_iff.mp h
  simp [digitValue?, digitZeros, hlow, show c.toNat < 58 by omega]

def EndsDigits (t : Text) : Prop := ∀ c ∈ t.head?, digitValue? c = none ∧ c ≠ '_'

theorem digits_of_endsDigits {t : Text} (h : EndsDigits t) : digits t = ([], t) := by
  cases t with
  | nil => rfl
  | cons c t => simp [digits, (h c rfl).1]

theorem digits_append {ds t : Text} (hds : ∀ c ∈ ds, c.isDigit = true) (ht : EndsDigits t) :
    digits (ds ++ t) = (digitValues ds, t) := by
  induction ds with
  | nil => exact digits_of_endsDigits ht
  | cons c ds ih =>
    have ih := ih fun d hd => hds d (List.mem_cons_of_mem _ hd)
    have hc := digitValue?_of_isDigit (hds c List.mem_cons_self)
    have hnext : ∀ u, ds ++ t ≠ '_' :: u := by
      intro u hu
      cases ds with
      | nil =>
        rw [List.nil_append] at hu
        exact (ht '_' (by rw [hu]; rfl)).2 rfl
      | cons d ds =>
        injection hu with hd
        have := hds d (by simp)
        rw [hd] at this
        cases this
    rw [List.cons_append, digits, hc]
    split
    · next heq => cases heq
    · next d heq =>
      cases heq
      split
      · next u hu => exact absurd hu (hnext u)
      · rw [ih]
        rfl

end Text

theorem significand_digitValues (ds : Text) (e : Int) :
    Decimal.significand ⟨digitValues ds, e⟩ = digitsValue ds := by
  simp [Decimal.significand, digitValues, digitsValue, Nat.ofDigitChars_eq_foldl, List.foldl_map]

end GraphBlock
