import GraphBlock.Proofs.Equation.Tags

/-!
The classes of tags. Every text is a tag of exactly one class, so it makes no difference in which
order the classes are tried.
-/

namespace GraphBlock.Tag

inductive Class
  | hidden
  | style
  | color
  | label
  | restriction
  deriving DecidableEq, Repr

/-- What makes a text a tag of a class; a restriction is a text of none of the other classes. -/
def Class.Holds : Class → Text → Prop
  | hidden, t => Text.upper t = "HIDDEN".toList
  | style, t => (Style.named? t).isSome = true
  | color, t => (Color.parse? t).isSome = true
  | label, t => Text.upper t = "LABEL".toList ∨ "LABEL:".toList <+: Text.upper t
  | restriction, t =>
    Text.upper t ≠ "HIDDEN".toList ∧ Style.named? t = none ∧ Color.parse? t = none ∧
      Text.upper t ≠ "LABEL".toList ∧ ¬ "LABEL:".toList <+: Text.upper t

instance Class.decidableHolds : (k : Class) → (t : Text) → Decidable (k.Holds t)
  | hidden, _ => inferInstanceAs (Decidable (_ = _))
  | style, _ => inferInstanceAs (Decidable (_ = _))
  | color, _ => inferInstanceAs (Decidable (_ = _))
  | label, _ => inferInstanceAs (Decidable (_ ∨ _))
  | restriction, _ => inferInstanceAs (Decidable (_ ∧ _ ∧ _ ∧ _ ∧ _))

def Class.tag : Class → Text → Tag
  | hidden, _ => .hidden
  | style, t => (Style.named? t).elim (.restriction t) .style
  | color, t => (Color.parse? t).elim (.restriction t) .color
  | label, t => if Text.upper t = "LABEL".toList then .ownLabel else .label (labelText t)
  | restriction, t => .restriction t

/-- What a text is taken for where the classes are tried in the given order. -/
def ofTextBy (order : List Class) (t : Text) : Tag :=
  (order.find? (·.Holds t)).elim (.restriction t) (·.tag t)

def toClass : Tag → Class
  | hidden => .hidden
  | style _ => .style
  | color _ => .color
  | ownLabel => .label
  | label _ => .label
  | restriction _ => .restriction

/-- The label that a tag gives: none of its own where it is a word alone, and otherwise what
follows its first colon, later colons included. -/
inductive Labels (t : Text) : Text → Prop
  | own (h : Text.upper t = "LABEL".toList) : Labels t []
  | text {a b : Text} (h : "LABEL:".toList <+: Text.upper t) (ht : t = a ++ ':' :: b)
      (ha : ':' ∉ a) : Labels t (Text.trim b)

variable {t u : Text} {j k : Class}

theorem ofText_of_restriction (h : Class.restriction.Holds t) : ofText t = restriction t := by
  obtain ⟨hhidden, hstyle, hcolor, hown, hlabel⟩ := h
  have hstart : ¬ "LABEL:".toList.isPrefixOf (Text.upper t) = true :=
    mt List.isPrefixOf_iff_prefix.mp hlabel
  simp only [ofText, if_neg hhidden, hstyle, hcolor, if_neg hown, if_neg hstart]

theorem toClass_of_holds (h : k.Holds t) : (ofText t).toClass = k := by
  cases k with
  | hidden => rw [ofText_of_upper_hidden h]; rfl
  | style =>
    obtain ⟨s, hs⟩ := Option.isSome_iff_exists.mp h
    rw [ofText_of_named? hs]; rfl
  | color =>
    obtain ⟨c, hc⟩ := Option.isSome_iff_exists.mp h
    rw [ofText_of_parse? hc]; rfl
  | label =>
    rcases h with h | h
    · rw [ofText_of_upper_label h]; rfl
    · rw [ofText_of_prefixed h]; rfl
  | restriction => rw [ofText_of_restriction h]; rfl

theorem exists_holds (t : Text) : ∃ k : Class, k.Holds t := by
  by_cases hhidden : Class.hidden.Holds t
  · exact ⟨.hidden, hhidden⟩
  by_cases hstyle : Class.style.Holds t
  · exact ⟨.style, hstyle⟩
  by_cases hcolor : Class.color.Holds t
  · exact ⟨.color, hcolor⟩
  by_cases hlabel : Class.label.Holds t
  · exact ⟨.label, hlabel⟩
  · rw [Class.Holds, not_or] at hlabel
    exact ⟨.restriction, hhidden, Option.not_isSome_iff_eq_none.mp hstyle,
      Option.not_isSome_iff_eq_none.mp hcolor, hlabel⟩

theorem holds_iff : k.Holds t ↔ k = (ofText t).toClass := by
  constructor
  · exact fun h => (toClass_of_holds h).symm
  · intro h
    obtain ⟨j, hj⟩ := exists_holds t
    rw [h, toClass_of_holds hj]
    exact hj

theorem existsUnique_holds (t : Text) : ∃! k : Class, k.Holds t :=
  ⟨(ofText t).toClass, holds_iff.mpr rfl, fun _ h => holds_iff.mp h⟩

theorem tag_of_holds (h : k.Holds t) : k.tag t = ofText t := by
  cases k with
  | hidden => exact (ofText_of_upper_hidden h).symm
  | style =>
    obtain ⟨s, hs⟩ := Option.isSome_iff_exists.mp h
    rw [Class.tag, ofText_of_named? hs, hs, Option.elim_some]
  | color =>
    obtain ⟨c, hc⟩ := Option.isSome_iff_exists.mp h
    rw [Class.tag, ofText_of_parse? hc, hc, Option.elim_some]
  | label =>
    rw [Class.tag]
    split
    · next hown => exact (ofText_of_upper_label hown).symm
    · next hown => exact (ofText_of_prefixed (h.resolve_left hown)).symm
  | restriction => exact (ofText_of_restriction h).symm

theorem ofTextBy_eq {order : List Class} (horder : ∀ k, k ≠ .restriction → k ∈ order) (t : Text) :
    ofTextBy order t = ofText t := by
  rw [ofTextBy]
  cases hfind : order.find? (·.Holds t) with
  | some k =>
    have hholds := List.find?_some hfind
    exact tag_of_holds (of_decide_eq_true hholds)
  | none =>
    obtain ⟨k, hk⟩ := exists_holds t
    have hrestriction : k = .restriction := by
      by_contra hne
      have hnot := List.find?_eq_none.mp hfind k (horder k hne)
      simp [hk] at hnot
    rw [hrestriction] at hk
    exact (ofText_of_restriction hk).symm

theorem ofText_eq_hidden_iff : ofText t = hidden ↔ Class.hidden.Holds t := by
  constructor
  · intro h
    rw [holds_iff, h]
    rfl
  · exact ofText_of_upper_hidden

theorem style?_eq_none {tag : Tag} (h : tag.toClass ≠ .style) : tag.style? = none := by
  cases tag <;> first | rfl | exact absurd rfl h

theorem color?_eq_none {tag : Tag} (h : tag.toClass ≠ .color) : tag.color? = none := by
  cases tag <;> first | rfl | exact absurd rfl h

theorem label?_eq_none {tag : Tag} (h : tag.toClass ≠ .label) : tag.label? = none := by
  cases tag <;> first | rfl | exact absurd rfl h

theorem restriction?_eq_none {tag : Tag} (h : tag.toClass ≠ .restriction) :
    tag.restriction? = none := by
  cases tag <;> first | rfl | exact absurd rfl h

theorem toClass_ne (h : ¬ k.Holds t) : (ofText t).toClass ≠ k :=
  fun heq => h (holds_iff.mpr heq.symm)

theorem style?_ofText (t : Text) : (ofText t).style? = Style.named? t := by
  cases hstyle : Style.named? t with
  | some s => rw [ofText_of_named? hstyle]; rfl
  | none => exact style?_eq_none (toClass_ne (by simp [Class.Holds, hstyle]))

theorem color?_ofText (t : Text) : (ofText t).color? = Color.parse? t := by
  cases hcolor : Color.parse? t with
  | some c => rw [ofText_of_parse? hcolor]; rfl
  | none => exact color?_eq_none (toClass_ne (by simp [Class.Holds, hcolor]))

theorem restriction?_ofText (t : Text) :
    (ofText t).restriction? = if Class.restriction.Holds t then some t else none := by
  split
  · next h => rw [ofText_of_restriction h]; rfl
  · next h => exact restriction?_eq_none (toClass_ne h)

theorem exists_labelText (h : "LABEL:".toList <+: Text.upper t) :
    ∃ a b, t = a ++ ':' :: b ∧ ':' ∉ a ∧ labelText t = Text.trim b := by
  have hcolon : ':' ∈ t := Text.mem_of_mem_upper (by decide) (h.subset (by decide))
  cases hbreak : Text.breakAt? ':' t with
  | none => exact absurd hcolon (Text.breakAt?_eq_none_iff.mp hbreak)
  | some cut =>
    obtain ⟨ht, ha⟩ := Text.breakAt?_eq_some (a := cut.1) (b := cut.2) hbreak
    exact ⟨cut.1, cut.2, ht, ha, by rw [labelText, hbreak]⟩

theorem labelText_eq {a b : Text} (ht : t = a ++ ':' :: b) (ha : ':' ∉ a) :
    labelText t = Text.trim b := by
  rw [labelText, ht, Text.breakAt?_append b ha]

theorem labels_iff : Labels t u ↔ (ofText t).label? = some u := by
  constructor
  · intro h
    cases h with
    | own h => rw [ofText_of_upper_label h]; rfl
    | text h ht ha => rw [ofText_of_prefixed h, labelText_eq ht ha]; rfl
  · intro h
    by_cases hlabel : Class.label.Holds t
    · rcases hlabel with hown | hstart
      · rw [ofText_of_upper_label hown] at h
        cases h
        exact .own hown
      · obtain ⟨a, b, ht, ha, heq⟩ := exists_labelText hstart
        rw [ofText_of_prefixed hstart, heq] at h
        cases h
        exact .text hstart ht ha
    · rw [label?_eq_none (toClass_ne hlabel)] at h
      cases h

theorem isSome_label?_iff (t : Text) : (ofText t).label?.isSome = true ↔ Class.label.Holds t := by
  rw [holds_iff]
  generalize ofText t = tag
  cases tag <;> simp [toClass]

theorem ofText_eq_label_iff :
    ofText t = label u ↔ "LABEL:".toList <+: Text.upper t ∧ Labels t u := by
  constructor
  · intro h
    have hlabels : Labels t u := labels_iff.mpr (by rw [h]; rfl)
    refine ⟨?_, hlabels⟩
    cases hlabels with
    | own hown =>
      rw [ofText_of_upper_label hown] at h
      cases h
    | text hstart => exact hstart
  · intro h
    have hread := labels_iff.mp h.2
    rw [ofText_of_prefixed h.1] at hread ⊢
    cases hread
    rfl

end GraphBlock.Tag
