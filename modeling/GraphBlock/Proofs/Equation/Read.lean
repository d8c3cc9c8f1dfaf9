import GraphBlock.Proofs.Accepted
import GraphBlock.Proofs.Equation.Line

namespace GraphBlock

variable {advise : Text → Option Hint}

theorem IsSegment.of_infix {s t : Text} (hs : IsSegment s) (h : t <:+: s) (hne : t ≠ [])
    (htrim : Text.trim t = t) : IsSegment t where
  ne_nil := hne
  trimmed := htrim
  not_bar := fun hbar => hs.not_bar (h.subset hbar)
  not_break := fun c hc => hs.not_break c (h.subset hc)
  not_infix := fun hin => hs.not_infix (hin.trans h)

theorem Color.readable_of_parse? {t : Text} {c : Color} (h : parse? t = some c) : c.Readable := by
  rw [parse?] at h
  split at h
  · next hcode =>
    cases h
    exact hcode
  · obtain ⟨m, -, hm⟩ := Option.map_eq_some_iff.mp h
    cases hm
    exact trivial

namespace Tag

variable {t : Text}

theorem ofText_cases (t : Text) :
    ofText t = hidden ∨ (∃ s, ofText t = style s) ∨
      (∃ c, ofText t = color c ∧ Color.parse? t = some c) ∨ ofText t = ownLabel ∨
      ofText t = label (labelText t) ∨ ofText t = restriction t := by
  rw [ofText]
  split
  · exact .inl rfl
  · split
    · next s _ => exact .inr (.inl ⟨s, rfl⟩)
    · split
      · next c hc => exact .inr (.inr (.inl ⟨c, rfl, hc⟩))
      · split
        · exact .inr (.inr (.inr (.inl rfl)))
        · split
          · exact .inr (.inr (.inr (.inr (.inl rfl))))
          · exact .inr (.inr (.inr (.inr (.inr rfl))))

theorem labelText_isInfix (t : Text) : labelText t <:+: t := by
  rw [labelText]
  split
  · next a b hbreak =>
    obtain ⟨ht, -⟩ := Text.breakAt?_eq_some hbreak
    have hb : b <:+: t := ⟨a ++ [':'], [], by simp [ht]⟩
    exact (Text.trimBy_isInfix Text.isBlank b).trans hb
  · exact List.nil_infix

theorem trim_labelText (t : Text) : Text.trim (labelText t) = labelText t := by
  rw [labelText]
  split
  · exact Text.trimBy_trimBy Text.isBlank _
  · rfl

theorem wellFormed_ofText (ht : IsSegment t) :
    (ofText t).WellFormed ∨ ofText t = label [] := by
  rcases ofText_cases t with h | ⟨s, h⟩ | ⟨c, h, hc⟩ | h | h | h
  · rw [h]
    exact .inl trivial
  · rw [h]
    exact .inl trivial
  · rw [h]
    exact .inl (Color.readable_of_parse? hc)
  · rw [h]
    exact .inl trivial
  · rw [h]
    by_cases hne : labelText t = []
    · rw [hne]
      exact .inr rfl
    · exact .inl (ht.of_infix (labelText_isInfix t) hne (trim_labelText t))
  · rw [h]
    exact .inl ⟨ht, h⟩

end Tag

theorem Equation.wellFormed_ofExpression {t : Text} (ht : IsSegment t) :
    (ofExpression t).WellFormed where
  expression := ht
  restrictions_ne := by simp [ofExpression]
  restrictions := by simp [ofExpression]
  color := by simp [ofExpression]
  hidden := by simp [ofExpression]
  label := by simp [ofExpression]

namespace EquationLine

theorem add_wellFormed {l m : EquationLine} {segment : Text} (hsegment : IsSegment segment)
    (hl : l.equation.WellFormed) (h : add advise l segment = .ok m) : m.equation.WellFormed := by
  have htag := Tag.wellFormed_ofText hsegment
  rw [add] at h
  generalize Tag.ofText segment = tag at h htag
  cases tag with
  | hidden =>
    cases h
    exact { hl with hidden := by simp }
  | style s =>
    dsimp only at h
    split at h
    · cases h
    · cases h
      exact { hl with }
  | color c =>
    dsimp only at h
    split at h
    · cases h
    · cases h
      refine { hl with color := ?_ }
      intro d hd
      cases hd
      exact htag.resolve_right (by simp)
  | ownLabel =>
    dsimp only at h
    split at h
    · cases h
    · cases h
      refine { hl with label := ?_ }
      intro t ht
      cases ht
      exact .inl rfl
  | label t =>
    dsimp only at h
    split at h
    · cases h
    · split at h
      · cases h
      · next hne =>
        cases h
        refine { hl with label := ?_ }
        intro u hu
        cases hu
        refine .inr (htag.resolve_right fun hnil => hne ?_)
        cases hnil
        rfl
  | restriction t =>
    cases h
    have hrestriction : (Tag.restriction t).WellFormed := htag.resolve_right (by simp)
    refine { hl with restrictions_ne := by simp, restrictions := ?_ }
    intro rs hrs r hr
    cases hrs
    rcases List.mem_append.mp hr with hr | hr
    · cases hold : l.equation.restrictions with
      | none =>
        rw [hold] at hr
        cases hr
      | some rs =>
        rw [hold] at hr
        exact hl.restrictions rs hold r hr
    · rw [List.mem_singleton.mp hr]
      exact hrestriction

theorem isSegment_of_mem_segments {line t : Text}
    (hbreak : ∀ c ∈ line, Text.isLineBreak c = false) (hfree : ¬ Source.delimiter <:+: line)
    (ht : t ∈ segments line) : IsSegment t := by
  obtain ⟨hpart, hin⟩ := Text.mem_parts ht
  refine ⟨hpart.ne_nil, hpart.trimmed, ?_, fun c hc => hbreak c (hin.subset hc),
    fun hdelimiter => hfree (hdelimiter.trans hin)⟩
  intro hbar
  have hno := hpart.not_delimiter '|' hbar
  cases hno

theorem wellFormed_of_parse {line : Text} {l : EquationLine}
    (hbreak : ∀ c ∈ line, Text.isLineBreak c = false) (hfree : ¬ Source.delimiter <:+: line)
    (h : parse advise line = .ok l) : l.equation.WellFormed := by
  have hsegments : ∀ t ∈ segments line, IsSegment t := fun t =>
    isSegment_of_mem_segments hbreak hfree
  rw [parse] at h
  split at h
  · cases h
  · next expression tags hline =>
    rw [hline] at hsegments
    refine foldlM_induction (P := fun l => l.equation.WellFormed) ?_
      (Equation.wellFormed_ofExpression (hsegments expression List.mem_cons_self)) h
    intro t ht l m hl hm
    exact add_wellFormed (hsegments t (List.mem_cons_of_mem _ ht)) hl hm

end EquationLine

end GraphBlock
