import GraphBlock.Json
import GraphBlock.Proofs.Number.ReadBack

namespace GraphBlock

theorem Layout.exists_mark_write (l : Layout) (digits : Text) (exponent : Int) :
    '.' ∈ l.write digits exponent ∨ 'e' ∈ l.write digits exponent := by
  rw [write]
  split
  · right
    simp
  · left
    split <;> simp

namespace Binary64

theorem exists_mark_text {x : Binary64} (hx : x.isFinite = true) : '.' ∈ x.text ∨ 'e' ∈ x.text := by
  cases x with
  | infinite => cases hx
  | nan => cases hx
  | finite negative m hm =>
    have hmagnitude : '.' ∈ magnitudeText m ∨ 'e' ∈ magnitudeText m := by
      by_cases hzero : m = 0
      · rw [magnitudeText, if_pos hzero]
        left
        decide
      · rw [magnitudeText, if_neg hzero]
        generalize (shortest m).1 = digits
        generalize (shortest m).2 = exponent
        exact layout.exists_mark_write digits exponent
    rw [text_finite hm]
    simp only [withSign]
    split
    · exact hmagnitude.imp (List.mem_cons_of_mem _) (List.mem_cons_of_mem _)
    · exact hmagnitude

end Binary64

def intValue : Text → Int
  | '-' :: t => -(digitsValue t : Int)
  | t => digitsValue t

theorem intValue_intText (n : Int) : intValue (intText n) = n := by
  cases n with
  | negSucc n =>
    rw [intText, intValue, digitsValue_natText]
    rfl
  | ofNat n =>
    have hdash : ∀ t, natText n ≠ '-' :: t := by
      intro t ht
      have := isDigit_natText (n := n) '-' (by rw [ht]; exact List.mem_cons_self)
      cases this
    rw [intText, intValue.eq_2 _ hdash, digitsValue_natText]
    rfl

theorem not_mark_mem_intText (n : Int) : '.' ∉ intText n ∧ 'e' ∉ intText n := by
  have hdigits : ∀ c ∈ intText n, c.isDigit = true ∨ c = '-' := by
    intro c hc
    cases n with
    | ofNat n => exact .inl (isDigit_natText c hc)
    | negSucc n =>
      rcases List.mem_cons.mp hc with hc | hc
      · exact .inr hc
      · exact .inl (isDigit_natText c hc)
  constructor
  · intro h
    rcases hdigits _ h with h | h <;> cases h
  · intro h
    rcases hdigits _ h with h | h <;> cases h

namespace Json

def marks : Text := ['"', '[', '{', ',', ']', '}']

inductive IsAtom : Json → Prop
  | null : IsAtom null
  | bool (b : Bool) : IsAtom (bool b)
  | int (n : Int) : IsAtom (int n)
  | float (x : Binary64) : IsAtom (float x)

def words : List (Text × Json) :=
  [("null", null), ("true", bool true), ("false", bool false), ("NaN", float .nan),
    ("Infinity", float (.infinite false)), ("-Infinity", float (.infinite true))]

def ofNumeral (t : Text) : Json :=
  if '.' ∈ t ∨ 'e' ∈ t then float ((Binary64.read? t).getD .nan) else int (intValue t)

def ofAtom (t : Text) : Json := ((words.find? (·.1 = t)).map (·.2)).getD (ofNumeral t)

theorem find?_words_withSign {negative : Bool} {t : Text} (ht : Numeral t) :
    words.find? (·.1 = Binary64.withSign negative t) = none := by
  obtain ⟨c, r, hcons, hc⟩ := ht.head
  have hletters : c ≠ 'n' ∧ c ≠ 't' ∧ c ≠ 'f' ∧ c ≠ 'N' ∧ c ≠ 'I' ∧ c ≠ '-' :=
    forall_isDigit (P := fun c => c ≠ 'n' ∧ c ≠ 't' ∧ c ≠ 'f' ∧ c ≠ 'N' ∧ c ≠ 'I' ∧ c ≠ '-')
      (by decide) hc
  obtain ⟨hn, ht, hf, hN, hI, hdash⟩ := hletters
  rw [List.find?_eq_none]
  cases negative with
  | false =>
    simp [words, Binary64.withSign, hcons, Ne.symm hn, Ne.symm ht, Ne.symm hf, Ne.symm hN,
      Ne.symm hI, Ne.symm hdash]
  | true => simp [words, Binary64.withSign, hcons, Ne.symm hI]

/-- A text of an atom determines the atom. -/
theorem ofAtom_text {a : Json} (ha : a.IsAtom) : ofAtom a.text = a := by
  cases ha with
  | null => rfl
  | bool b => cases b <;> rfl
  | int n =>
    have hword : words.find? (·.1 = intText n) = none := by
      rw [Binary64.intText_eq]
      exact find?_words_withSign (Numeral.natText n.natAbs)
    obtain ⟨hpoint, hexponent⟩ := not_mark_mem_intText n
    rw [text, ofAtom, hword, Option.map_none, Option.getD_none, ofNumeral,
      if_neg (not_or.mpr ⟨hpoint, hexponent⟩), intValue_intText]
  | float x =>
    cases x with
    | nan => rfl
    | infinite negative => cases negative <;> rfl
    | finite negative m hm =>
      have hword : words.find? (·.1 = (Binary64.finite negative m hm).text) = none := by
        rw [Binary64.text_finite hm]
        exact find?_words_withSign (Binary64.numeral_magnitudeText hm)
      have hmark := Binary64.exists_mark_text (x := .finite negative m hm) rfl
      have hread := Binary64.read?_text (x := .finite negative m hm) rfl
      have htext : (float (.finite negative m hm)).text =
          (Binary64.finite negative m hm).text := rfl
      rw [htext]
      generalize (Binary64.finite negative m hm).text = t at hword hmark hread ⊢
      rw [ofAtom, hword, Option.map_none, Option.getD_none, ofNumeral, if_pos hmark, hread,
        Option.getD_some]

theorem not_mark_of_numeral {negative : Bool} {t : Text} (ht : Numeral t) :
    ∀ c ∈ Binary64.withSign negative t, c ∉ marks := by
  have hchars : ∀ c ∈ t, c ∉ marks := by
    intro c hc
    rcases ht.chars c hc with hc | hc
    · exact forall_isDigit (P := fun c => c ∉ marks) (by decide) hc
    · have hother : ∀ c ∈ (['.', 'e', '+', '-'] : Text), c ∉ marks := by decide
      exact hother c hc
  cases negative with
  | false => exact hchars
  | true =>
    intro c hc
    rcases List.mem_cons.mp hc with hc | hc
    · rw [hc]
      decide
    · exact hchars c hc

theorem ne_nil_of_numeral {negative : Bool} {t : Text} (ht : Numeral t) :
    Binary64.withSign negative t ≠ [] := by
  obtain ⟨c, r, hcons, -⟩ := ht.head
  cases negative with
  | false =>
    intro hnil
    rw [hcons] at hnil
    cases hnil
  | true => exact List.cons_ne_nil _ _

theorem text_of_isAtom {a : Json} (ha : a.IsAtom) : a.text ≠ [] ∧ ∀ c ∈ a.text, c ∉ marks := by
  cases ha with
  | null => exact ⟨by decide, by decide⟩
  | bool b => cases b <;> exact ⟨by decide, by decide⟩
  | int n =>
    rw [text, Binary64.intText_eq]
    exact ⟨ne_nil_of_numeral (Numeral.natText n.natAbs),
      not_mark_of_numeral (Numeral.natText n.natAbs)⟩
  | float x =>
    cases x with
    | nan => exact ⟨by decide, by decide⟩
    | infinite negative => cases negative <;> exact ⟨by decide, by decide⟩
    | finite negative m hm =>
      have htext : (float (.finite negative m hm)).text =
          (Binary64.finite negative m hm).text := rfl
      rw [htext, Binary64.text_finite hm]
      exact ⟨ne_nil_of_numeral (Binary64.numeral_magnitudeText hm),
        not_mark_of_numeral (Binary64.numeral_magnitudeText hm)⟩

end Json

end GraphBlock
