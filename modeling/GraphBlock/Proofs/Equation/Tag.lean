import GraphBlock.Equation.Line
import GraphBlock.Proofs.Setting.Directives
import GraphBlock.Proofs.Setting.Spelling
import GraphBlock.Proofs.Source.Segments
import GraphBlock.Proofs.Text.Blank

namespace GraphBlock

/-- A text that can stand between bars: trimmed, on one line, without a delimiter of segments. -/
structure IsSegment (t : Text) : Prop where
  ne_nil : t ≠ []
  trimmed : Text.trim t = t
  not_bar : '|' ∉ t
  not_break : ∀ c ∈ t, Text.isLineBreak c = false
  not_infix : ¬ Source.delimiter <:+: t

instance (t : Text) : Decidable (IsSegment t) :=
  decidable_of_iff
    (t ≠ [] ∧ Text.trim t = t ∧ '|' ∉ t ∧ (∀ c ∈ t, Text.isLineBreak c = false) ∧
      ¬ Source.delimiter <:+: t)
    ⟨fun h => ⟨h.1, h.2.1, h.2.2.1, h.2.2.2.1, h.2.2.2.2⟩,
      fun h => ⟨h.ne_nil, h.trimmed, h.not_bar, h.not_break, h.not_infix⟩⟩

namespace IsSegment

theorem of_run {t : Text} (hne : t ≠ [])
    (hchars : ∀ c ∈ t, Text.isBlank c = false ∧ c ≠ '|' ∧ c ≠ '-') : IsSegment t where
  ne_nil := hne
  trimmed := Text.trimBy_eq_self_of_forall fun c hc => (hchars c hc).1
  not_bar := fun h => (hchars _ h).2.1 rfl
  not_break := fun c hc => Text.not_isLineBreak (hchars c hc).1
  not_infix := fun h => (hchars '-' (h.subset (by decide))).2.2 rfl

theorem append {a t : Text} (ha : IsSegment (a ++ [':'])) (ht : IsSegment t) :
    IsSegment (a ++ ':' :: t) where
  ne_nil := by simp
  trimmed := by
    apply Text.trimBy_eq_self
    · intro c hc
      apply Text.head?_trimBy (p := Text.isBlank) (t := a ++ [':'])
      rw [← Text.trim, ha.trimmed]
      cases a with
      | nil => exact hc
      | cons x a => exact hc
    · intro c hc
      apply Text.getLast?_trimBy (p := Text.isBlank) (t := t)
      rw [← Text.trim, ht.trimmed]
      rwa [List.append_cons, List.getLast?_append_of_ne_nil _ ht.ne_nil] at hc
  not_bar := by
    have hfront := ha.not_bar
    have htail := ht.not_bar
    simp only [List.mem_append, List.mem_cons, not_or] at hfront ⊢
    exact ⟨hfront.1, hfront.2.1, htail⟩
  not_break := by
    intro c hc
    rw [List.append_cons, List.mem_append] at hc
    exact hc.elim (ha.not_break c) (ht.not_break c)
  not_infix := by
    rw [Source.delimiter_infix_cons_iff (by decide), not_or]
    exact ⟨fun h => ha.not_infix (List.infix_append_of_infix_left h), ht.not_infix⟩

theorem of_code {t : Text} (ht : (Color.code t).Spellable) : IsSegment t := by
  obtain ⟨body, hbody, halnum⟩ := ht
  rw [hbody]
  apply of_run (List.cons_ne_nil _ _)
  intro c hc
  rcases List.mem_cons.mp hc with hc | hc
  · rw [hc]
    decide
  · have hrange := Text.toNat_of_isAlphanum (halnum c hc)
    refine ⟨Text.not_isBlank_of_toNat (by omega) (by omega), ?_, ?_⟩
    · intro heq
      rw [heq] at hrange
      exact absurd hrange (by decide)
    · intro heq
      rw [heq] at hrange
      exact absurd hrange (by decide)

end IsSegment

namespace Tag

/-- A tag with a text of its own is recognised only if that text is a segment, and a restriction
only if its text is no other tag. -/
def WellFormed : Tag → Prop
  | hidden => True
  | style _ => True
  | color c => c.Readable
  | ownLabel => True
  | label t => IsSegment t
  | restriction t => IsSegment t ∧ ofText t = .restriction t

theorem isSegment_written {tag : Tag} (h : tag.WellFormed) : IsSegment tag.written := by
  cases tag with
  | hidden => exact .of_run (by decide) (by decide)
  | style s =>
    cases s with
    | line s => cases s <;> exact .of_run (by decide) (by decide)
    | point s => cases s <;> exact .of_run (by decide) (by decide)
  | color c =>
    cases c with
    | named c => cases c <;> exact .of_run (by decide) (by decide)
    | code t => exact .of_code (Color.Readable.spellable h)
  | ownLabel => exact .of_run (by decide) (by decide)
  | label t => exact .append (a := "label") (.of_run (by decide) (by decide)) h
  | restriction t => exact h.1

theorem named?_eq_none {α : Type} [Vocabulary α] {t u : Text} {c : Char}
    (ht : Text.upper t = c :: u)
    (h : ∀ m ∈ Vocabulary.members (α := α), (Vocabulary.name m).head? ≠ some c) :
    (Vocabulary.named? t : Option α) = none := by
  rw [Vocabulary.named?, List.find?_eq_none]
  intro m hm heq
  apply h m hm
  rw [beq_iff_eq.mp heq, ht]
  rfl

theorem ofText_of_head {t u : Text} {c : Char} (ht : Text.upper t = c :: u)
    (hc : c = '#' ∨ c = 'L') :
    ofText t = (Color.parse? t).elim
      (if Text.upper t = "LABEL".toList then ownLabel
        else if "LABEL:".toList.isPrefixOf (Text.upper t) then label (labelText t)
        else restriction t) color := by
  have hhidden : Text.upper t ≠ "HIDDEN".toList := by
    rw [ht]
    intro h
    injection h with h
    rcases hc with hc | hc <;> (rw [hc] at h; exact absurd h (by decide))
  have hline : (Vocabulary.named? t : Option LineStyle) = none :=
    named?_eq_none ht (by rcases hc with hc | hc <;> rw [hc] <;> decide)
  have hpoint : (Vocabulary.named? t : Option PointStyle) = none :=
    named?_eq_none ht (by rcases hc with hc | hc <;> rw [hc] <;> decide)
  have hstyle : Style.named? t = none := by
    rw [Style.named?, hline, hpoint]
    rfl
  rw [ofText, if_neg hhidden, hstyle]
  cases Color.parse? t <;> rfl

theorem ofText_code {t : Text} (ht : Color.isCode t = true) : ofText t = color (.code t) := by
  obtain ⟨body, hbody, -⟩ := Color.Readable.spellable (c := .code t) ht
  have hupper : Text.upper t = '#' :: Text.upper body := by
    rw [hbody]
    rfl
  have hparse : Color.parse? t = some (.code t) := by rw [Color.parse?, if_pos ht]
  rw [ofText_of_head hupper (.inl rfl), hparse, Option.elim_some]

theorem ofText_of_upper_hidden {t : Text} (h : Text.upper t = "HIDDEN".toList) :
    ofText t = hidden := by
  rw [ofText, if_pos h]

theorem ofText_of_named? {t : Text} {s : Style} (h : Style.named? t = some s) :
    ofText t = style s := by
  have hhidden : Text.upper t ≠ "HIDDEN".toList := by
    rw [← Style.name_eq_of_named? h]
    rcases s with s | s <;> cases s <;> decide
  rw [ofText, if_neg hhidden, h]

theorem ofText_of_parse? {t : Text} {c : Color} (h : Color.parse? t = some c) :
    ofText t = color c := by
  by_cases hcode : Color.isCode t = true
  · rw [Color.parse?, if_pos hcode] at h
    cases h
    exact ofText_code hcode
  · obtain ⟨m, hm, -⟩ : ∃ m : NamedColor, Vocabulary.named? t = some m ∧ .named m = c := by
      rw [Color.parse?, if_neg hcode] at h
      exact Option.map_eq_some_iff.mp h
    have hname := Vocabulary.name_eq_of_named? hm
    have hhidden : Text.upper t ≠ "HIDDEN".toList := by
      rw [← hname]
      cases m <;> decide
    have hstyle : Style.named? t = none := by
      rw [Style.named?, Vocabulary.named?, Vocabulary.named?, ← hname]
      cases m <;> decide
    rw [ofText, if_neg hhidden, hstyle]
    simp only [h]

theorem parse?_eq_none_of_head {t u : Text} (ht : Text.upper t = 'L' :: u) :
    Color.parse? t = none := by
  have hcode : ¬ Color.isCode t = true := by
    intro hcode
    obtain ⟨body, hbody, -⟩ := Color.Readable.spellable (c := .code t) hcode
    rw [hbody] at ht
    cases ht
  have hnamed : (Vocabulary.named? t : Option NamedColor) = none := named?_eq_none ht (by decide)
  rw [Color.parse?, if_neg hcode, hnamed]
  rfl

theorem ofText_of_upper_label {t : Text} (h : Text.upper t = "LABEL".toList) :
    ofText t = ownLabel := by
  rw [ofText_of_head h (.inr rfl), parse?_eq_none_of_head h, Option.elim_none, if_pos h]

theorem ofText_of_prefixed {t : Text} (h : "LABEL:".toList <+: Text.upper t) :
    ofText t = label (labelText t) := by
  have hown : Text.upper t ≠ "LABEL".toList := by
    intro heq
    rw [heq] at h
    exact absurd h.length_le (by decide)
  obtain ⟨rest, hrest⟩ := h
  rw [ofText_of_head hrest.symm (.inr rfl), parse?_eq_none_of_head hrest.symm, Option.elim_none,
    if_neg hown, if_pos (List.isPrefixOf_iff_prefix.mpr ⟨rest, hrest⟩)]

theorem ofText_label {t : Text} (ht : Text.trim t = t) : ofText ("label:" ++ t) = label t := by
  have hprefix : "LABEL:".toList <+: Text.upper ("label:" ++ t) := ⟨Text.upper t, rfl⟩
  have hbreak : Text.breakAt? ':' ("label:" ++ t) = some ("label".toList, t) :=
    Text.breakAt?_append (a := "label") t (by decide)
  rw [ofText_of_prefixed hprefix, labelText, hbreak]
  dsimp only
  rw [ht]

theorem ofText_written {tag : Tag} (h : tag.WellFormed) : ofText tag.written = tag := by
  cases tag with
  | hidden => decide
  | style s =>
    cases s with
    | line s => cases s <;> decide
    | point s => cases s <;> decide
  | color c =>
    cases c with
    | named c => cases c <;> decide
    | code t => exact ofText_code h
  | ownLabel => decide
  | label t => exact ofText_label h.trimmed
  | restriction t => exact h.2

end Tag

end GraphBlock
