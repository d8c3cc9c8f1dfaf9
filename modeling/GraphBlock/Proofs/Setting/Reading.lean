import GraphBlock.Proofs.Setting.Conversion
import GraphBlock.Proofs.Text.Blank
import GraphBlock.Proofs.Text.Trim
import GraphBlock.Setting.Overrides

/-!
What readers accept. No value that is read as a setting holds blanks or delimiters between its
characters, and the blanks around it make no difference.
-/

namespace GraphBlock

namespace Text

def Ink (t : Text) : Prop := ∀ c ∈ t, isBlank c = false

/-- A class of characters that numbers, names and codes are written without, and that have no other
case. -/
structure Foreign (p : Char → Bool) : Prop where
  digit : ∀ c d, digitValue? c = some d → p c = false
  mark : ∀ c ∈ (['_', '+', '-', '.', '#'] : Text), p c = false
  alphanum : ∀ c, c.isAlphanum = true → p c = false
  toLower_eq : ∀ c, p c = true → c.toLower = c
  upperChar_eq : ∀ c, p c = true → upperChar c = [c]

theorem foreign_isBlank : Foreign isBlank where
  digit := fun _ _ => not_isBlank_of_digitValue?
  mark := by decide
  alphanum := by
    intro c hc
    have hrange := toNat_of_isAlphanum hc
    exact not_isBlank_of_toNat (by omega) (by omega)
  toLower_eq := fun _ => toLower_of_isBlank
  upperChar_eq := fun _ => upperChar_of_isBlank

theorem mem_of_isDelimiter {c : Char} (h : Overrides.isDelimiter c = true) :
    c ∈ ([';', '\r', '\n'] : Text) := by
  simpa [Overrides.isDelimiter, or_assoc] using h

theorem not_isDelimiter {P : Char → Prop} {c : Char}
    (hP : ∀ d ∈ ([';', '\r', '\n'] : Text), ¬ P d) (hc : P c) :
    Overrides.isDelimiter c = false := by
  rw [Bool.eq_false_iff]
  exact fun h => hP c (mem_of_isDelimiter h) hc

theorem foreign_isDelimiter : Foreign Overrides.isDelimiter where
  digit := by
    intro c d hd
    have hdigit : (digitValue? c).isSome = true := by rw [hd]; rfl
    exact not_isDelimiter (P := fun c => (digitValue? c).isSome = true) (by decide) hdigit
  mark := by decide
  alphanum := fun _ => not_isDelimiter (P := fun c => c.isAlphanum = true) (by decide)
  toLower_eq := fun c hc =>
    (by decide : ∀ d ∈ ([';', '\r', '\n'] : Text), d.toLower = d) c (mem_of_isDelimiter hc)
  upperChar_eq := fun c hc =>
    (by decide : ∀ d ∈ ([';', '\r', '\n'] : Text), upperChar d = [d]) c (mem_of_isDelimiter hc)

variable {p : Char → Bool} {t u : Text}

theorem free_of_kept (hkept : ∀ c ∈ t, p c = true → c ∈ u) (h : ∀ c ∈ u, p c = false) :
    ∀ c ∈ t, p c = false := by
  intro c hc
  cases hb : p c with
  | false => rfl
  | true =>
    rw [h c (hkept c hc hb)] at hb
    cases hb

theorem Foreign.free_of_upper (hp : Foreign p) (h : ∀ c ∈ upper t, p c = false) :
    ∀ c ∈ t, p c = false :=
  free_of_kept (fun c hc hb => mem_upper_of_mem (hp.upperChar_eq c hb) hc) h

theorem Foreign.free_of_lower (hp : Foreign p) (h : ∀ c ∈ lower t, p c = false) :
    ∀ c ∈ t, p c = false :=
  free_of_kept (fun c hc hb => List.mem_map.mpr ⟨c, hc, hp.toLower_eq c hb⟩) h

theorem exists_digits (hp : Foreign p) (t : Text) :
    ∃ used, t = used ++ (digits t).2 ∧ ∀ c ∈ used, p c = false := by
  fun_induction digits t with
  | case1 => exact ⟨[], rfl, by simp⟩
  | case2 c t hc => exact ⟨[], rfl, by simp⟩
  | case3 c d hc u rest hu ih => exact ⟨[c], rfl, by simpa using hp.digit c d hc⟩
  | case4 c d hc u ds rest hne hu ih =>
    obtain ⟨used, hused, hfree⟩ := ih
    rw [hu] at hused
    refine ⟨c :: '_' :: used, by rw [hused]; rfl, ?_⟩
    simpa [hp.digit c d hc, hp.mark] using hfree
  | case5 c d hc t hno ih =>
    obtain ⟨used, hused, hfree⟩ := ih
    refine ⟨c :: used, by rw [List.cons_append, ← hused], ?_⟩
    simpa [hp.digit c d hc] using hfree

theorem exists_sign (hp : Foreign p) (t : Text) :
    ∃ used, t = used ++ (sign t).2 ∧ ∀ c ∈ used, p c = false := by
  rw [sign.eq_def]
  split
  · exact ⟨['-'], rfl, by simp [hp.mark]⟩
  · exact ⟨['+'], rfl, by simp [hp.mark]⟩
  · exact ⟨[], rfl, by simp⟩

theorem trim_eq_of_ink (h : Ink (trimBy isNumberBlank t)) : trim t = trimBy isNumberBlank t := by
  have hblank : ∀ c, isNumberBlank c = true → isBlank c = true := by
    intro c hc
    rw [isNumberBlank, Bool.and_eq_true] at hc
    exact hc.1
  have hself : trimBy isBlank (trimBy isNumberBlank t) = trimBy isNumberBlank t :=
    trimBy_eq_self_of_forall h
  obtain ⟨a, b, ha, hb, ht⟩ := exists_pad isNumberBlank t
  conv_lhs => rw [ht]
  exact trimBy_pad (fun c hc => hblank c (ha c hc)) (fun c hc => hblank c (hb c hc)) hself

end Text

open Text

variable {p : Char → Bool}

namespace Decimal

theorem free_of_exponent? (hp : Foreign p) {t : Text} {e : Int} (h : exponent? t = some e) :
    ∀ c ∈ t, p c = false := by
  cases t with
  | nil => simp
  | cons c t =>
    rw [exponent?] at h
    split at h
    · next hc =>
      obtain ⟨mark, hmark, hfreeMark⟩ := exists_sign hp t
      obtain ⟨used, hused, hfreeUsed⟩ := exists_digits hp (sign t).2
      have hletter : p c = false := by
        apply hp.alphanum
        rcases hc with hc | hc <;> (rw [hc]; decide)
      have hend : (Text.digits (sign t).2).2 = [] := by
        split at h
        · cases h
        · next heq => rw [heq]
        · cases h
      rw [hmark, hused, hend, List.append_nil]
      exact List.forall_mem_cons.mpr ⟨hletter, List.forall_mem_append.mpr ⟨hfreeMark, hfreeUsed⟩⟩
    · cases h

theorem free_of_read? (hp : Foreign p) {t : Text} {d : Decimal} (h : read? t = some d) :
    ∀ c ∈ t, p c = false := by
  obtain ⟨whole, hwhole, hfreeWhole⟩ := exists_digits hp t
  rw [hwhole]
  refine List.forall_mem_append.mpr ⟨hfreeWhole, ?_⟩
  rw [read?] at h
  generalize (Text.digits t).2 = rest at h
  split at h
  · next u =>
    split at h
    · cases h
    · obtain ⟨e, he, -⟩ := Option.map_eq_some_iff.mp h
      obtain ⟨used, hused, hfreeUsed⟩ := exists_digits hp u
      rw [hused]
      exact List.forall_mem_cons.mpr ⟨hp.mark '.' (by decide),
        List.forall_mem_append.mpr ⟨hfreeUsed, free_of_exponent? hp he⟩⟩
  · split at h
    · cases h
    · obtain ⟨e, he, -⟩ := Option.map_eq_some_iff.mp h
      exact free_of_exponent? hp he

end Decimal

theorem Binary64.free_of_read? (hp : Foreign p) {t : Text} {x : Binary64} (hx : x.isFinite = true)
    (h : read? t = some x) : ∀ c ∈ trimBy isNumberBlank t, p c = false := by
  obtain ⟨mark, hmark, hfreeMark⟩ := exists_sign hp (trimBy isNumberBlank t)
  rw [hmark]
  refine List.forall_mem_append.mpr ⟨hfreeMark, ?_⟩
  rw [read?] at h
  split at h
  next negative body hbody =>
  rw [hbody]
  split at h
  · cases h
    cases hx
  · split at h
    · cases h
      cases hx
    · obtain ⟨d, hd, -⟩ := Option.map_eq_some_iff.mp h
      exact Decimal.free_of_read? hp hd

theorem Vocabulary.free_of_name (hp : Foreign p) {α : Type} [Vocabulary α] {t : Text} {m : α}
    (hm : ∀ c ∈ name m, c.isAlphanum = true) (h : name m = upper t) : ∀ c ∈ t, p c = false := by
  apply hp.free_of_upper
  rw [← h]
  exact fun c hc => hp.alphanum c (hm c hc)

theorem Color.Coded.free (hp : Foreign p) {t : Text} (h : Coded t) : ∀ c ∈ t, p c = false := by
  obtain ⟨body, rfl, -, halphanum⟩ := h
  exact List.forall_mem_cons.mpr ⟨hp.mark '#' (by decide),
    fun c hc => hp.alphanum c (halphanum c hc)⟩

namespace Kind

variable {kind : Kind} {t : Text} {v : Value} {value : Option Text}

theorem ink_of_parse? {c : Color} (h : Color.parse? t = some c) : Ink t := by
  rw [Color.parse?] at h
  split at h
  · next hcode => exact (Color.isCode_eq_true_iff.mp hcode).free foreign_isBlank
  · obtain ⟨m, hm, -⟩ := Option.map_eq_some_iff.mp h
    exact Vocabulary.free_of_name foreign_isBlank (by cases m <;> decide)
      (NamedColor.named?_eq_some_iff.mp hm)

theorem Converts.free_of_flag (hp : Foreign p) (h : flag.Converts (some t) v) :
    ∀ c ∈ t, p c = false := by
  have hword : ∀ {word : Text}, (∀ c ∈ word, c.isAlphanum = true) → Text.lower t = word →
      ∀ c ∈ t, p c = false := by
    intro word hword heq
    apply hp.free_of_lower
    rw [heq]
    exact fun c hc => hp.alphanum c (hword c hc)
  cases h with
  | bare h =>
    obtain rfl : t = [] := by simpa using h
    simp
  | on h => exact hword (by decide) h
  | off h => exact hword (by decide) h

/-- Without the blanks that may surround a number, a text that converts has nothing of the class. -/
theorem Converts.free_of_trimBy (hp : Foreign p) (h : kind.Converts (some t) v) :
    ∀ c ∈ trimBy isNumberBlank t, p c = false := by
  have hwhole : (∀ c ∈ t, p c = false) → ∀ c ∈ trimBy isNumberBlank t, p c = false :=
    fun ht c hc => ht c ((trimBy_isInfix _ t).subset hc)
  cases h with
  | number hread hx => exact Binary64.free_of_read? hp hx hread
  | integer hread hx => exact Binary64.free_of_read? hp hx hread
  | bare h => exact hwhole (free_of_flag hp (.bare h))
  | on h => exact hwhole (free_of_flag hp (.on h))
  | off h => exact hwhole (free_of_flag hp (.off h))
  | @degreeMode _ m h => exact hwhole (Vocabulary.free_of_name hp (by cases m <;> decide) h)
  | @named _ c h => exact hwhole (Vocabulary.free_of_name hp (by cases c <;> decide) h)
  | code h => exact hwhole (h.free hp)

theorem Converts.trim_eq (h : kind.Converts (some t) v) :
    Text.trim t = trimBy isNumberBlank t :=
  trim_eq_of_ink (h.free_of_trimBy foreign_isBlank)

theorem Converts.free_of_trim (hp : Foreign p) (h : kind.Converts (some t) v) :
    ∀ c ∈ Text.trim t, p c = false := by
  rw [h.trim_eq]
  exact h.free_of_trimBy hp

theorem Converts.trimmed (h : kind.Converts (some t) v) :
    kind.Converts (some (Text.trim t)) v := by
  have htrim := h.trim_eq
  have hread : Binary64.read? (trimBy isNumberBlank t) = Binary64.read? t := by
    rw [Binary64.read?, trimBy_trimBy, Binary64.read?]
  have hself : (∀ c ∈ t, Text.isBlank c = false) → Text.trim t = t := trimBy_eq_self_of_forall
  cases h with
  | number ht hx => exact .number (by rw [htrim, hread, ht]) hx
  | integer ht hx hn => exact .integer (by rw [htrim, hread, ht]) hx hn
  | bare h =>
    rw [hself (free_of_flag foreign_isBlank (.bare h))]
    exact .bare h
  | on h =>
    rw [hself (free_of_flag foreign_isBlank (.on h))]
    exact .on h
  | off h =>
    rw [hself (free_of_flag foreign_isBlank (.off h))]
    exact .off h
  | @degreeMode _ m h =>
    rw [hself (Vocabulary.free_of_name foreign_isBlank (by cases m <;> decide) h)]
    exact .degreeMode h
  | @named _ c h =>
    rw [hself (Vocabulary.free_of_name foreign_isBlank (by cases c <;> decide) h)]
    exact .named h
  | code h =>
    rw [hself (h.free foreign_isBlank)]
    exact .code h

theorem Converts.eq_flag (h : kind.Converts value v) (hvalue : value = none ∨ value = some []) :
    kind = flag := by
  by_contra hkind
  have hread : kind.read [] value = .ok v := read_of_converts h
  rw [read_of_refuses (.missing hkind hvalue)] at hread
  cases hread

theorem Converts.ink (ht : Text.trim t = t) (h : kind.Converts (some t) v) : Ink t := by
  have hink := h.free_of_trim foreign_isBlank
  rwa [ht] at hink

end Kind

namespace Setting

variable {k : Key} {t : Text} {s other : Setting} {value : Option Text}

theorem ink_of_read (ht : Text.trim t = t) (h : read k (some t) = .ok s) : Ink t :=
  (read_eq_ok_iff.mp h).2.ink ht

theorem read_trim (h : read k (some t) = .ok s) : read k (some (Text.trim t)) = .ok s := by
  rw [read_eq_ok_iff] at h ⊢
  exact ⟨h.1, h.2.trimmed⟩

theorem free_of_read_flag (hp : Foreign p) (hvalue : value = none ∨ value = some [])
    (hother : read k value = .ok other) (h : read k (some t) = .ok s) : ∀ c ∈ t, p c = false := by
  have hflag := (read_eq_ok_iff.mp hother).2.eq_flag hvalue
  have hconverts := (read_eq_ok_iff.mp h).2
  rw [hflag] at hconverts
  exact hconverts.free_of_flag hp

/-- A value that is read is one run of characters with blanks around it, and the run alone is read
as the same. -/
theorem exists_run (h : read k (some t) = .ok s) (hne : t ≠ []) :
    ∃ a w b, t = a ++ w ++ b ∧ (∀ c ∈ a, isBlank c = true) ∧ (∀ c ∈ b, isBlank c = true) ∧
      w ≠ [] ∧ Ink w ∧ (∀ c ∈ w, Overrides.isDelimiter c = false) ∧ read k (some w) = .ok s := by
  obtain ⟨a, b, ha, hb, hpad⟩ := exists_pad isBlank t
  have hconverts := (read_eq_ok_iff.mp h).2
  have hread := read_trim h
  refine ⟨a, Text.trim t, b, hpad, ha, hb, ?_, hconverts.free_of_trim foreign_isBlank,
    hconverts.free_of_trim foreign_isDelimiter, hread⟩
  intro hnil
  rw [hnil] at hread
  obtain ⟨c, hc⟩ := List.exists_mem_of_ne_nil t hne
  have hblank := trimBy_eq_nil_iff.mp hnil c hc
  rw [free_of_read_flag foreign_isBlank (.inr rfl) hread h c hc] at hblank
  cases hblank

end Setting

end GraphBlock
