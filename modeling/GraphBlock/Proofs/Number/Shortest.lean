import GraphBlock.Proofs.Number.Decimal
import GraphBlock.Proofs.Text.Trim

namespace GraphBlock

namespace Layout

open Decimal

variable {digits : Text} {exponent : Int}

/-- A text that is read as `d.ddd * 10 ^ exponent` for the given digits. -/
def ReadsAs (text digits : Text) (exponent : Int) : Prop :=
  ∃ (t : Text) (k : Nat), (∀ c ∈ t, c.isDigit = true) ∧
    digitsValue t = digitsValue digits * 10 ^ k ∧
    Decimal.read? text = some ⟨digitValues t, exponent + 1 - digits.length - k⟩

theorem isDigit_zeros (n : Nat) : ∀ c ∈ List.replicate n '0', c.isDigit = true := by
  intro c hc
  rw [(List.mem_replicate.mp hc).2]
  rfl

theorem isDigit_append {a b : Text} (ha : ∀ c ∈ a, c.isDigit = true)
    (hb : ∀ c ∈ b, c.isDigit = true) : ∀ c ∈ a ++ b, c.isDigit = true := by
  intro c hc
  rcases List.mem_append.mp hc with hc | hc
  · exact ha c hc
  · exact hb c hc

theorem endsDigits_nil : Text.EndsDigits [] := by
  rintro c ⟨⟩

theorem readsAs_scientific (exponent : Int) (width : Nat) {d : Char} {ds : Text}
    (hdigits : ∀ c ∈ d :: ds, c.isDigit = true) :
    ReadsAs ([d] ++ (if ds = [] then [] else '.' :: ds) ++
      exponentPart exponent (padded width exponent.natAbs)) (d :: ds) exponent := by
  have hd : ∀ c ∈ [d], c.isDigit = true := by simpa using hdigits d List.mem_cons_self
  have hds : ∀ c ∈ ds, c.isDigit = true := by
    intro c hc
    exact hdigits c (List.mem_cons_of_mem _ hc)
  have htail := endsDigits_exponentPart exponent (padded width exponent.natAbs)
  have hexp := exponent?_exponentPart (e := exponent) isDigit_padded
    (padded_ne_nil width exponent.natAbs) (digitsValue_padded _ _)
  have harith : exponent + 1 - (d :: ds).length - (0 : Nat) = exponent - ds.length := by
    simp only [List.length_cons]
    omega
  refine ⟨d :: ds, 0, hdigits, by simp, ?_⟩
  rw [harith]
  cases ds with
  | nil =>
    have := read?_whole hd (by simp) htail (by rintro c ⟨⟩; decide)
    rw [hexp] at this
    simpa using this
  | cons e ds =>
    have := read?_fraction hd (by simp) hds htail
    rw [hexp] at this
    simpa using this

theorem readsAs_fraction (hdigits : ∀ c ∈ digits, c.isDigit = true) (hneg : exponent < 0) :
    ReadsAs ("0." ++ List.replicate (exponent.natAbs - 1) '0' ++ digits) digits exponent := by
  have hzero : ∀ c ∈ (['0'] : Text), c.isDigit = true := by simp
  have hfraction := isDigit_append (isDigit_zeros (exponent.natAbs - 1)) hdigits
  have hread := read?_fraction hzero (by simp) hfraction endsDigits_nil
  have harith : exponent + 1 - digits.length - (0 : Nat) =
      0 - (List.replicate (exponent.natAbs - 1) '0' ++ digits).length := by
    simp only [List.length_append, List.length_replicate]
    omega
  refine ⟨['0'] ++ (List.replicate (exponent.natAbs - 1) '0' ++ digits), 0,
    isDigit_append hzero hfraction, ?_, ?_⟩
  · rw [digitsValue_append, digitsValue_append]
    simp [digitsValue, Nat.ofDigitChars_cons]
  · rw [harith]
    simpa [exponent?] using hread

theorem readsAs_positional (hdigits : ∀ c ∈ digits, c.isDigit = true) (hne : digits ≠ [])
    (hpos : 0 ≤ exponent) (whole : Nat) (hwhole : (whole : Int) = exponent + 1) :
    ReadsAs (digits.take whole ++ List.replicate (whole - digits.length) '0' ++
      '.' :: (if digits.drop whole = [] then ['0'] else digits.drop whole)) digits exponent := by
  rcases Nat.lt_or_ge whole digits.length with hmany | hfew
  · have htake : ∀ c ∈ digits.take whole, c.isDigit = true := fun c hc =>
      hdigits c (List.mem_of_mem_take hc)
    have hdrop : ∀ c ∈ digits.drop whole, c.isDigit = true := by
      intro c hc
      exact hdigits c (List.mem_of_mem_drop hc)
    have hnil : digits.take whole ≠ [] := by
      simp only [Ne, List.take_eq_nil_iff, hne, or_false]
      omega
    have hread := read?_fraction htake hnil hdrop endsDigits_nil
    have harith : exponent + 1 - digits.length - (0 : Nat) = 0 - (digits.drop whole).length := by
      simp only [List.length_drop]
      omega
    have hsome : digits.drop whole ≠ [] := by
      simp only [Ne, List.drop_eq_nil_iff]
      omega
    have hfill : whole - digits.length = 0 := by omega
    refine ⟨digits, 0, hdigits, by simp, ?_⟩
    rw [harith, if_neg hsome, hfill]
    simpa [exponent?] using hread
  · have hzeros := isDigit_append hdigits (isDigit_zeros (whole - digits.length))
    have hzero : ∀ c ∈ (['0'] : Text), c.isDigit = true := by simp
    have hread := read?_fraction hzeros (by simp [hne]) hzero endsDigits_nil
    have harith : exponent + 1 - digits.length - ((whole - digits.length + 1 : Nat) : Int) =
        0 - (['0'] : Text).length := by
      simp only [List.length_singleton]
      omega
    refine ⟨digits ++ List.replicate (whole - digits.length) '0' ++ ['0'],
      whole - digits.length + 1, isDigit_append hzeros hzero, ?_, ?_⟩
    · rw [digitsValue_append, digitsValue_append]
      simp [digitsValue, Nat.ofDigitChars_cons, pow_succ, Nat.mul_assoc]
    · rw [harith, if_pos (List.drop_eq_nil_iff.mpr hfew), List.take_of_length_le hfew]
      simpa [exponent?] using hread

theorem readsAs_write (l : Layout) (hl : l.keepsPoint = false)
    (hdigits : ∀ c ∈ digits, c.isDigit = true) (hne : digits ≠ []) :
    ReadsAs (l.write digits exponent) digits exponent := by
  rw [write]
  split
  · obtain ⟨d, ds, rfl⟩ := List.exists_cons_of_ne_nil hne
    have := readsAs_scientific exponent l.exponentDigits hdigits
    cases ds with
    | nil => simpa [hl, exponentPart] using this
    | cons e ds => simpa [exponentPart] using this
  · split
    · next hneg => exact readsAs_fraction hdigits hneg
    · next hneg =>
      have hpos : 0 ≤ exponent := by omega
      have := readsAs_positional hdigits hne hpos (exponent.toNat + 1) (by omega)
      cases hdrop : digits.drop (exponent.toNat + 1) with
      | nil => simpa [hdrop] using this
      | cons e ds => simpa [hdrop] using this

end Layout

end GraphBlock
