import GraphBlock.Proofs.Number.ReadBack
import GraphBlock.Proofs.Setting.Agreement
import GraphBlock.Proofs.Setting.Conversion
import GraphBlock.Proofs.Setting.Reading
import GraphBlock.Proofs.Source.Directive
import GraphBlock.Proofs.Text.Blank

/-!
How settings are spelled. The spelling of a value is one run of characters that cannot be taken for
the delimiter of segments, and it is read as the same value again.
-/

namespace GraphBlock

def Number.Finite : Number → Prop
  | int _ => True
  | float x => x.isFinite = true

def Color.Spellable : Color → Prop
  | named _ => True
  | code t => ∃ body, t = '#' :: body ∧ ∀ c ∈ body, c.isAlphanum = true

def Setting.Spellable : Setting → Prop
  | size _ n => n.Finite
  | edge _ x => x.Finite
  | flag _ _ => True
  | degreeMode _ => True
  | defaultColor color => ∃ c, color = some c ∧ c.Spellable

/-- A setting of the type of its key: any number, also one that is not finite, and any color, or
none. -/
def Setting.SchemaTyped : Setting → Prop
  | size _ _ => True
  | edge _ _ => True
  | flag _ _ => True
  | degreeMode _ => True
  | defaultColor color => ∀ c, color = some c → c.Spellable

theorem Setting.Spellable.schemaTyped {s : Setting} (hs : s.Spellable) : s.SchemaTyped := by
  cases s with
  | defaultColor color =>
    obtain ⟨c, rfl, hc⟩ := hs
    intro d hd
    cases hd
    exact hc
  | _ => exact trivial

namespace Source

theorem IsValue.of_count {t : Text} (hne : t ≠ [])
    (hchars : ∀ c ∈ t, Text.isBlank c = false ∧ Overrides.isDelimiter c = false)
    (hdash : t.count '-' ≤ 2) (hlast : ∀ c ∈ t.getLast?, c ≠ '-') : IsValue t where
  ne_nil := hne
  not_blank := fun c hc => (hchars c hc).1
  not_delimiter := fun c hc => (hchars c hc).2
  not_infix := by
    intro hin
    have hcount : (delimiter : Text).count '-' ≤ t.count '-' := hin.sublist.count_le '-'
    have hthree : (delimiter : Text).count '-' = 3 := by decide
    omega
  getLast?_ne := hlast

theorem isValue_withSign {negative : Bool} {t : Text} (ht : Numeral t) :
    IsValue (Binary64.withSign negative t) := by
  have hdigit : ∀ c : Char, c.isDigit = true →
      Text.isBlank c = false ∧ Overrides.isDelimiter c = false ∧ c ≠ '-' := fun c =>
    forall_isDigit
      (P := fun c => Text.isBlank c = false ∧ Overrides.isDelimiter c = false ∧ c ≠ '-')
      (by decide)
  have hmark : ∀ c ∈ (['.', 'e', '+', '-'] : Text),
      Text.isBlank c = false ∧ Overrides.isDelimiter c = false := by decide
  have hchars : ∀ c ∈ t, Text.isBlank c = false ∧ Overrides.isDelimiter c = false := by
    intro c hc
    rcases ht.chars c hc with hc | hc
    · exact ⟨(hdigit c hc).1, (hdigit c hc).2.1⟩
    · exact hmark c hc
  have hlast : ∀ c ∈ t.getLast?, c ≠ '-' := by
    intro c hc
    exact (hdigit c (ht.last c hc)).2.2
  obtain ⟨d, r, hcons, -⟩ := ht.head
  have hne : t ≠ [] := by
    rw [hcons]
    exact List.cons_ne_nil d r
  have hdashes := ht.dashes
  cases negative with
  | false => exact IsValue.of_count (t := t) hne hchars (by omega) hlast
  | true =>
    apply IsValue.of_count (List.cons_ne_nil _ _)
    · intro c hc
      rcases List.mem_cons.mp hc with hc | hc
      · rw [hc]
        decide
      · exact hchars c hc
    · rw [List.count_cons_self]
      omega
    · intro c hc
      apply hlast c
      rw [hcons] at hc ⊢
      rwa [List.getLast?_cons_cons] at hc

theorem isValue_intText (n : Int) : IsValue (intText n) := by
  rw [Binary64.intText_eq]
  exact isValue_withSign (Numeral.natText n.natAbs)

theorem isValue_text (x : Binary64) : IsValue x.text := by
  cases x with
  | finite negative m hm => exact isValue_withSign (Binary64.numeral_magnitudeText hm)
  | infinite negative =>
    cases negative <;> exact .of_count (by decide) (by decide) (by decide) (by decide)
  | nan => exact .of_count (by decide) (by decide) (by decide) (by decide)

theorem isValue_ofNumber (a : Number) : IsValue (Value.ofNumber a).directive := by
  cases a with
  | int n => exact isValue_intText n
  | float x =>
    rw [Value.ofNumber, Value.directive]
    split
    · next n _ => exact isValue_intText n
    · exact isValue_text x

theorem isValue_code {t : Text} (ht : (Color.code t).Spellable) : IsValue t := by
  obtain ⟨body, hbody, halnum⟩ := ht
  have hdash : ∀ c ∈ t, c ≠ '-' := by
    intro c hc heq
    rw [hbody, heq] at hc
    rcases List.mem_cons.mp hc with hc | hc
    · cases hc
    · cases halnum _ hc
  have hcount : t.count '-' = 0 := List.count_eq_zero.mpr fun h => hdash _ h rfl
  apply IsValue.of_count
  · rw [hbody]
    exact List.cons_ne_nil _ _
  · intro c hc
    rw [hbody] at hc
    rcases List.mem_cons.mp hc with hc | hc
    · rw [hc]
      decide
    · exact ⟨Text.foreign_isBlank.alphanum c (halnum c hc),
        Text.foreign_isDelimiter.alphanum c (halnum c hc)⟩
  · omega
  · exact fun c hc => hdash c (List.mem_of_getLast? hc)

theorem isValue_bool (on : Bool) : IsValue (Value.bool on).directive := by
  cases on <;> exact .of_count (by decide) (by decide) (by decide) (by decide)

theorem isValue_unset : IsValue (Setting.defaultColor none).toValue.directive :=
  .of_count (by decide) (by decide) (by decide) (by decide)

theorem isValue_of_schemaTyped {s : Setting} (hs : s.SchemaTyped) :
    IsValue s.toValue.directive := by
  cases s with
  | size _ n => exact isValue_ofNumber n
  | edge _ x => exact isValue_ofNumber x
  | flag _ on => exact isValue_bool on
  | degreeMode mode =>
    cases mode <;> exact .of_count (by decide) (by decide) (by decide) (by decide)
  | defaultColor color =>
    cases color with
    | none => exact isValue_unset
    | some c =>
      cases c with
      | named c => cases c <;> exact .of_count (by decide) (by decide) (by decide) (by decide)
      | code t => exact isValue_code (hs _ rfl)

theorem isValue_directive {s : Setting} (hs : s.Spellable) : IsValue s.toValue.directive :=
  isValue_of_schemaTyped hs.schemaTyped

end Source

/-- A code that is read as a color; a number sign alone is not. -/
def Color.Readable : Color → Prop
  | named _ => True
  | code t => isCode t = true

/-- A setting of the kind that its key asks for, with numbers that are read exactly. -/
def Setting.Typed : Setting → Prop
  | size _ (.int n) => n.natAbs < 2 ^ 50
  | size _ (.float _) => False
  | edge _ x => x.Finite ∧ x.Exact
  | flag _ _ => True
  | degreeMode _ => True
  | defaultColor color => ∃ c, color = some c ∧ c.Readable

theorem Color.Readable.spellable {c : Color} (hc : c.Readable) : c.Spellable := by
  cases c with
  | named _ => exact trivial
  | code t =>
    obtain ⟨body, hbody, -, halphanum⟩ := isCode_eq_true_iff.mp hc
    exact ⟨body, hbody, halphanum⟩

theorem Setting.Typed.spellable {s : Setting} (hs : s.Typed) : s.Spellable := by
  cases s with
  | size _ n =>
    cases n with
    | int n => exact trivial
    | float x => exact absurd hs id
  | edge _ x => exact hs.1
  | flag _ _ => exact trivial
  | degreeMode _ => exact trivial
  | defaultColor color =>
    obtain ⟨c, hcolor, hc⟩ := hs
    exact ⟨c, hcolor, hc.spellable⟩

namespace Kind

theorem exists_converts_number {a : Number} (hfinite : a.Finite) (hexact : a.Exact) :
    ∃ x, number.Converts (some (Value.ofNumber a).directive) (.float x) ∧
      (Number.float x).Same a := by
  cases a with
  | int n =>
    have hunits := Binary64.units?_ofInt (n := n) (by rw [Number.Exact] at hexact; omega)
    refine ⟨.ofInt n, .number (Binary64.read?_intText n) (Binary64.isFinite_of_units? hunits), ?_⟩
    exact (Number.same_int_float_iff.mpr (Binary64.toInt?_eq_some_iff.mpr hunits)).symm
  | float x =>
    cases hint : x.toInt? with
    | none =>
      have htext : (Value.ofNumber (.float x)).directive = x.text := by
        simp only [Value.ofNumber, Value.directive, hint]
      rw [htext]
      exact ⟨x, .number (Binary64.read?_text hfinite) hfinite, rfl⟩
    | some n =>
      have htext : (Value.ofNumber (.float x)).directive = intText n := by
        simp only [Value.ofNumber, Value.directive, hint]
      have hunits := Binary64.units?_ofInt_of_toInt? hint
      rw [htext]
      refine ⟨.ofInt n, .number (Binary64.read?_intText n) (Binary64.isFinite_of_units? hunits), ?_⟩
      rw [Number.Same, Number.place?_float_eq_units_iff.mpr hunits,
        Number.place?_float_eq_units_iff.mpr (Binary64.toInt?_eq_some_iff.mp hint)]

theorem converts_intText {n : Int} (hn : n.natAbs < 2 ^ 50) :
    integer.Converts (some (intText n)) (.int n) := by
  have hunits := Binary64.units?_ofInt (n := n) (by omega)
  exact .integer (Binary64.read?_intText n) (Binary64.isFinite_of_units? hunits)
    (Binary64.floor?_add_half hn)

theorem converts_color {c : Color} (hc : c.Readable) :
    color.Converts (some c.toValue.directive) c.toValue := by
  cases c with
  | named c => exact .named (by cases c <;> rfl)
  | code t => exact .code (Color.isCode_eq_true_iff.mp hc)

end Kind

namespace Setting

theorem read_directive {s : Setting} (hs : s.Typed) :
    ∃ t, read s.key (some s.toValue.directive) = .ok t ∧ t.Same s := by
  cases s with
  | size d n =>
    cases n with
    | float x => exact absurd hs id
    | int n => exact ⟨size d (.int n), read_eq_ok_iff.mpr ⟨rfl, Kind.converts_intText hs⟩, .refl _⟩
  | edge e x =>
    obtain ⟨y, hconverts, hsame⟩ := Kind.exists_converts_number hs.1 hs.2
    exact ⟨edge e (.float y), read_eq_ok_iff.mpr ⟨rfl, hconverts⟩, .edge e hsame⟩
  | flag f on =>
    have hconverts : Kind.flag.Converts (some (Value.bool on).directive) (.bool on) := by
      cases on with
      | true => exact .on rfl
      | false => exact .off rfl
    exact ⟨flag f on, read_eq_ok_iff.mpr ⟨rfl, hconverts⟩, .refl _⟩
  | degreeMode mode =>
    have hname : Vocabulary.name mode = Text.upper (Value.member (.degree mode)).directive := by
      cases mode <;> rfl
    exact ⟨degreeMode mode, read_eq_ok_iff.mpr ⟨rfl, .degreeMode hname⟩, .refl _⟩
  | defaultColor color =>
    obtain ⟨c, hcolor, hc⟩ := hs
    subst hcolor
    exact ⟨defaultColor (some c), read_eq_ok_iff.mpr ⟨rfl, Kind.converts_color hc⟩, .refl _⟩

end Setting

end GraphBlock
