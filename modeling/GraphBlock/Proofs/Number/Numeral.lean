import GraphBlock.Proofs.Number.Shortest

namespace GraphBlock

theorem mem_digits_of_isDigit {c : Char} (h : c.isDigit = true) : c ∈ "0123456789".toList := by
  obtain ⟨hlow, hhigh⟩ := isDigit_iff.mp h
  have hchars : ∀ n < 58, 48 ≤ n → Char.ofNat n ∈ "0123456789".toList := by decide
  simpa using hchars c.toNat (by omega) hlow

theorem forall_isDigit {P : Char → Prop} [DecidablePred P] (h : ∀ c ∈ "0123456789".toList, P c)
    {c : Char} (hc : c.isDigit = true) : P c :=
  h c (mem_digits_of_isDigit hc)

structure Numeral (t : Text) : Prop where
  head : ∃ c r, t = c :: r ∧ c.isDigit = true
  last : ∀ c ∈ t.getLast?, c.isDigit = true
  chars : ∀ c ∈ t, c.isDigit = true ∨ c ∈ ['.', 'e', '+', '-']
  dashes : t.count '-' ≤ 1

namespace Numeral

variable {a b t : Text}

theorem count_dash (ha : ∀ c ∈ a, c.isDigit = true) : a.count '-' = 0 :=
  List.count_eq_zero.mpr fun h => by simpa using ha _ h

theorem last_append (a : Text) (hb : ∀ c ∈ b, c.isDigit = true) (hne : b ≠ []) :
    ∀ c ∈ (a ++ b).getLast?, c.isDigit = true := by
  intro c hc
  rw [List.getLast?_append_of_ne_nil _ hne] at hc
  exact hb c (List.mem_of_getLast? hc)

theorem of_digits (ha : ∀ c ∈ a, c.isDigit = true) (hne : a ≠ []) : Numeral a where
  head := by
    obtain ⟨c, r, rfl⟩ := List.exists_cons_of_ne_nil hne
    exact ⟨c, r, rfl, ha c List.mem_cons_self⟩
  last := last_append [] ha hne
  chars := fun c hc => .inl (ha c hc)
  dashes := by simp [count_dash ha]

theorem natText (n : Nat) : Numeral (natText n) := of_digits isDigit_natText natText_ne_nil

theorem of_point (ha : ∀ c ∈ a, c.isDigit = true) (hne : a ≠ []) (hb : ∀ c ∈ b, c.isDigit = true)
    (hb' : b ≠ []) : Numeral (a ++ '.' :: b) where
  head := by
    obtain ⟨c, r, rfl⟩ := List.exists_cons_of_ne_nil hne
    exact ⟨c, r ++ '.' :: b, rfl, ha c List.mem_cons_self⟩
  last := by
    rw [List.append_cons]
    exact last_append _ hb hb'
  chars := by
    intro c hc
    rcases List.mem_append.mp hc with hc | hc
    · exact .inl (ha c hc)
    · rcases List.mem_cons.mp hc with rfl | hc
      · exact .inr (by simp)
      · exact .inl (hb c hc)
  dashes := by simp [count_dash ha, count_dash hb]

theorem append_exponentPart (ht : Numeral t) (hdash : t.count '-' = 0) (e : Int)
    (ha : ∀ c ∈ a, c.isDigit = true) (hne : a ≠ []) :
    Numeral (t ++ Decimal.exponentPart e a) where
  head := by
    obtain ⟨c, r, rfl, hc⟩ := ht.head
    exact ⟨c, r ++ Decimal.exponentPart e a, rfl, hc⟩
  last := by
    rw [Decimal.exponentPart, List.append_cons, List.append_cons]
    exact last_append _ ha hne
  chars := by
    intro c hc
    rcases List.mem_append.mp hc with hc | hc
    · exact ht.chars c hc
    · simp only [Decimal.exponentPart, List.mem_cons] at hc
      rcases hc with rfl | rfl | hc
      · exact .inr (by simp)
      · exact .inr (by split <;> simp)
      · exact .inl (ha c hc)
  dashes := by
    simp only [Decimal.exponentPart, List.count_append, List.count_cons, count_dash ha, hdash]
    split <;> simp

theorem write (l : Layout) (hl : l.keepsPoint = false) (exponent : Int)
    (ha : ∀ c ∈ a, c.isDigit = true) (hne : a ≠ []) : Numeral (l.write a exponent) := by
  have hzero : ∀ c ∈ (['0'] : Text), c.isDigit = true := by simp
  rw [Layout.write]
  split
  · obtain ⟨d, ds, rfl⟩ := List.exists_cons_of_ne_nil hne
    have hd : ∀ c ∈ [d], c.isDigit = true := by simpa using ha d List.mem_cons_self
    have hexp := fun t ht hdash => append_exponentPart (t := t) ht hdash exponent
      Decimal.isDigit_padded (Decimal.padded_ne_nil l.exponentDigits exponent.natAbs)
    cases ds with
    | nil =>
      have := hexp [d] (of_digits hd (by simp)) (count_dash hd)
      simpa [hl, Decimal.exponentPart] using this
    | cons e ds =>
      have hds : ∀ c ∈ e :: ds, c.isDigit = true := by
        intro c hc
        exact ha c (List.mem_cons_of_mem _ hc)
      have := hexp ([d] ++ '.' :: e :: ds) (of_point hd (by simp) hds (by simp))
        (by rw [List.count_append, count_dash hd, List.count_cons_of_ne (by decide),
          count_dash hds])
      simpa [Decimal.exponentPart] using this
  · split
    · have := of_point hzero (by simp)
        (Layout.isDigit_append (Layout.isDigit_zeros (exponent.natAbs - 1)) ha) (by simp [hne])
      simpa using this
    · have htake := Layout.isDigit_append
        (fun c hc => ha c (List.mem_of_mem_take hc) : ∀ c ∈ a.take (exponent.toNat + 1), _)
        (Layout.isDigit_zeros (exponent.toNat + 1 - a.length))
      have hdrop : ∀ c ∈ a.drop (exponent.toNat + 1), c.isDigit = true := by
        intro c hc
        exact ha c (List.mem_of_mem_drop hc)
      cases h : a.drop (exponent.toNat + 1) with
      | nil =>
        have := of_point htake (by simp [hne]) hzero (by simp)
        simpa [h] using this
      | cons e ds =>
        have := of_point htake (by simp [hne]) (h ▸ hdrop) (by simp)
        simpa [h] using this

end Numeral

namespace Binary64

def withSign (negative : Bool) (t : Text) : Text := if negative then '-' :: t else t

theorem numeral_head {t : Text} (ht : Numeral t) :
    ∃ c r, t = c :: r ∧ Text.isNumberBlank c = false ∧ c ≠ '-' ∧ c ≠ '+' ∧ c.toLower ≠ 'i' ∧
      c.toLower ≠ 'n' := by
  obtain ⟨c, r, hcons, hc⟩ := ht.head
  exact ⟨c, r, hcons, forall_isDigit (P := fun c => Text.isNumberBlank c = false ∧ c ≠ '-' ∧
    c ≠ '+' ∧ c.toLower ≠ 'i' ∧ c.toLower ≠ 'n') (by decide) hc⟩

theorem trimBy_withSign {negative : Bool} {t : Text} (ht : Numeral t) :
    Text.trimBy Text.isNumberBlank (withSign negative t) = withSign negative t := by
  obtain ⟨c, r, hcons, hblank, -⟩ := numeral_head ht
  have hlast : ∀ d ∈ t.getLast?, Text.isNumberBlank d = false := by
    intro d hd
    exact forall_isDigit (P := fun d => Text.isNumberBlank d = false) (by decide) (ht.last d hd)
  cases negative with
  | false =>
    refine Text.trimBy_eq_self (fun d hd => ?_) hlast
    rw [withSign, hcons] at hd
    cases hd
    exact hblank
  | true =>
    refine Text.trimBy_eq_self (fun d hd => ?_) (fun d hd => hlast d ?_)
    · cases hd
      decide
    · rw [withSign, if_pos rfl, hcons] at hd
      rw [hcons]
      simpa [List.getLast?_cons] using hd

/-- A numeral is read as its decimal; the words for infinity and for no number do not interfere. -/
theorem read?_withSign {negative : Bool} {t : Text} (ht : Numeral t) :
    read? (withSign negative t) = (Decimal.read? t).map (Decimal.toBinary64 negative) := by
  obtain ⟨c, r, hcons, -, hminus, hplus, hi, hn⟩ := numeral_head ht
  have hsign : Text.sign (withSign negative t) = (negative, t) := by
    cases negative with
    | true => rfl
    | false =>
      rw [withSign, hcons]
      simp [Text.sign, hminus, hplus]
  have hinf : ¬ (Text.lower t = "inf".toList ∨ Text.lower t = "infinity".toList) := by
    intro h
    simp only [hcons, Text.lower, List.map_cons] at h
    rcases h with h | h
    · injection h with h
      exact hi h
    · injection h with h
      exact hi h
  have hnan : Text.lower t ≠ "nan".toList := by
    intro h
    rw [hcons, Text.lower, List.map_cons] at h
    injection h with h
    exact hn h
  simp only [read?, trimBy_withSign ht, hsign, if_neg hinf, if_neg hnan]

end Binary64

end GraphBlock
