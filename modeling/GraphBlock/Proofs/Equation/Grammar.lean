import GraphBlock.Proofs.Accepted
import GraphBlock.Proofs.Equation.Classes

/-!
The grammar of an equation line. A line is read exactly when its tags keep the rules, what it then
says is found in its tags one class at a time, and otherwise the leftmost tag that breaks a rule
decides the error.
-/

namespace GraphBlock

namespace EquationLine

variable {advise advise' : Text → Option Hint} {expression t : Text} {tags before : List Text}
  {e : GraphError}

/-- The rules for the tags of a line. -/
structure Admissible (tags : List Text) : Prop where
  style : tags.countP (Tag.Class.style.Holds ·) ≤ 1
  color : tags.countP (Tag.Class.color.Holds ·) ≤ 1
  label : tags.countP (Tag.Class.label.Holds ·) ≤ 1
  text : ∀ t ∈ tags, "LABEL:".toList <+: Text.upper t → ¬ Tag.Labels t []

inductive Breaks (before : List Text) (t : Text) : GraphError → Prop
  | style {u : Text} {first : Style} (hu : u ∈ before) (hfirst : Style.named? u = some first)
      (ht : Tag.Class.style.Holds t) : Breaks before t (.duplicateStyle first t)
  | color {u : Text} (hu : u ∈ before) (hcolor : Tag.Class.color.Holds u)
      (ht : Tag.Class.color.Holds t) : Breaks before t .duplicateColor
  | label {u : Text} (hu : u ∈ before) (hlabel : Tag.Class.label.Holds u)
      (ht : Tag.Class.label.Holds t) : Breaks before t .duplicateLabel
  | text (hbefore : ∀ u ∈ before, ¬ Tag.Class.label.Holds u)
      (hlabel : "LABEL:".toList <+: Text.upper t) (ht : Tag.Labels t []) :
      Breaks before t .emptyLabel

/-- What an expression and its tags say. -/
structure Says (expression : Text) (tags : List Text) (equation : Equation) : Prop where
  expression : equation.expression = expression
  restrictions : equation.restrictions =
    if tags.filter (Tag.Class.restriction.Holds ·) = [] then none
    else some (tags.filter (Tag.Class.restriction.Holds ·))
  style : ∀ s, equation.style = some s ↔ ∃ t ∈ tags, Style.named? t = some s
  color : ∀ c, equation.color = some c ↔ ∃ t ∈ tags, Color.parse? t = some c
  hidden : equation.hidden = if ∃ t ∈ tags, Tag.Class.hidden.Holds t then some true else none
  label : ∀ u, equation.label = some u ↔ ∃ t ∈ tags, Tag.Labels t u

theorem length_filterMap_ofText {α : Type} {f : Tag → Option α} {k : Tag.Class}
    (hf : ∀ t, (f (Tag.ofText t)).isSome = true ↔ k.Holds t) (tags : List Text) :
    ((tags.map Tag.ofText).filterMap f).length = tags.countP (k.Holds ·) := by
  rw [List.filterMap_map, List.length_filterMap_eq_countP]
  apply List.countP_congr
  intro t _
  simpa using hf t

theorem admissible_iff :
    Admissible tags ↔
      Tag.Compatible (tags.map Tag.ofText) ∧ Tag.label [] ∉ tags.map Tag.ofText := by
  have hstyle := length_filterMap_ofText (f := Tag.style?) (k := .style)
    (fun t => by rw [Tag.style?_ofText]; rfl) tags
  have hcolor := length_filterMap_ofText (f := Tag.color?) (k := .color)
    (fun t => by rw [Tag.color?_ofText]; rfl) tags
  have hlabel := length_filterMap_ofText (f := Tag.label?) (k := .label) Tag.isSome_label?_iff tags
  have htext : (∀ t ∈ tags, "LABEL:".toList <+: Text.upper t → ¬ Tag.Labels t []) ↔
      Tag.label [] ∉ tags.map Tag.ofText := by
    simp only [List.mem_map, Tag.ofText_eq_label_iff, not_exists, not_and]
  rw [← htext]
  constructor
  · intro h
    exact ⟨⟨hstyle ▸ h.style, hcolor ▸ h.color, hlabel ▸ h.label⟩, h.text⟩
  · intro h
    exact ⟨hstyle ▸ h.1.style, hcolor ▸ h.1.color, hlabel ▸ h.1.label, h.2⟩

theorem Admissible.left {more : List Text} (h : Admissible (tags ++ more)) : Admissible tags := by
  obtain ⟨hcompatible, htext⟩ := admissible_iff.mp h
  rw [List.map_append] at hcompatible htext
  exact admissible_iff.mpr ⟨hcompatible.left, fun hin => htext (List.mem_append_left _ hin)⟩

theorem Admissible.concat (h : Admissible before) (ht : ∀ e, ¬ Breaks before t e) :
    Admissible (before ++ [t]) := by
  have hone : ∀ k : Tag.Class, before.countP (k.Holds ·) ≤ 1 →
      (∀ u ∈ before, k.Holds u → ¬ k.Holds t) → (before ++ [t]).countP (k.Holds ·) ≤ 1 := by
    intro k hk hfree
    rw [List.countP_append, List.countP_singleton]
    split
    · next hkt =>
      have hzero : before.countP (k.Holds ·) = 0 := by
        rw [List.countP_eq_zero]
        intro u hu hku
        exact hfree u hu (of_decide_eq_true hku) (of_decide_eq_true hkt)
      omega
    · exact hk
  have hlabel : ∀ u ∈ before, Tag.Class.label.Holds u → ¬ Tag.Class.label.Holds t :=
    fun u hu hku hkt => ht _ (.label hu hku hkt)
  refine ⟨hone .style h.style ?_, hone .color h.color ?_, hone .label h.label hlabel, ?_⟩
  · intro u hu hku hkt
    obtain ⟨first, hfirst⟩ := Option.isSome_iff_exists.mp hku
    exact ht _ (.style hu hfirst hkt)
  · exact fun u hu hku hkt => ht _ (.color hu hku hkt)
  · intro u hu hstart hblank
    rcases List.mem_append.mp hu with hu | hu
    · exact h.text u hu hstart hblank
    · rw [List.mem_singleton.mp hu] at hstart hblank
      exact ht _ (.text (fun u hu hku => hlabel u hu hku (.inr hstart)) hstart hblank)

theorem filterMap_restriction? (tags : List Text) :
    (tags.map Tag.ofText).filterMap Tag.restriction? =
      tags.filter (Tag.Class.restriction.Holds ·) := by
  rw [List.filterMap_map, ← List.filterMap_eq_filter]
  apply List.filterMap_congr
  intro t _
  rw [Function.comp_apply, Tag.restriction?_ofText, Option.guard]
  simp

theorem says_ofTags (h : Admissible tags) :
    Says expression tags (ofTags advise expression (tags.map Tag.ofText)).equation where
  expression := rfl
  restrictions := by
    change restrictions? (tags.map Tag.ofText) = _
    rw [restrictions?, filterMap_restriction?]
    split
    · next hnil => rw [if_pos hnil]
    · next hne => rw [if_neg hne]
  style := by
    intro s
    change (tags.map Tag.ofText).findSome? Tag.style? = some s ↔ _
    rw [findSome?_eq_some_iff_of_length (admissible_iff.mp h).1.style]
    simp only [List.mem_map, exists_exists_and_eq_and, Tag.style?_ofText]
  color := by
    intro c
    change (tags.map Tag.ofText).findSome? Tag.color? = some c ↔ _
    rw [findSome?_eq_some_iff_of_length (admissible_iff.mp h).1.color]
    simp only [List.mem_map, exists_exists_and_eq_and, Tag.color?_ofText]
  hidden := by
    change (if Tag.hidden ∈ tags.map Tag.ofText then some true else none) = _
    simp only [List.mem_map, Tag.ofText_eq_hidden_iff]
  label := by
    intro u
    change (tags.map Tag.ofText).findSome? Tag.label? = some u ↔ _
    rw [findSome?_eq_some_iff_of_length (admissible_iff.mp h).1.label]
    simp only [List.mem_map, exists_exists_and_eq_and, Tag.labels_iff]

theorem add_ofTags_segment (h : Admissible (before ++ [t])) :
    add advise (ofTags advise expression (before.map Tag.ofText)) t =
      .ok (ofTags advise expression ((before ++ [t]).map Tag.ofText)) := by
  obtain ⟨hcompatible, hlabel⟩ := admissible_iff.mp h
  rw [List.map_append] at hcompatible hlabel ⊢
  apply add_ofTags rfl _ hcompatible
  intro heq
  exact hlabel (List.mem_append_right _ (by rw [List.map_singleton, heq]; exact List.mem_cons_self))

theorem Says.isSome_color_iff {equation : Equation} (h : Says expression tags equation) :
    equation.color.isSome = true ↔ ∃ u ∈ tags, Tag.Class.color.Holds u := by
  simp only [Option.isSome_iff_exists, h.color, Tag.Class.Holds]
  constructor
  · rintro ⟨c, u, hu, hc⟩
    exact ⟨u, hu, c, hc⟩
  · rintro ⟨u, hu, c, hc⟩
    exact ⟨c, u, hu, hc⟩

theorem Says.isSome_label_iff {equation : Equation} (h : Says expression tags equation) :
    equation.label.isSome = true ↔ ∃ u ∈ tags, Tag.Class.label.Holds u := by
  simp only [Option.isSome_iff_exists, h.label, ← Tag.isSome_label?_iff, Tag.labels_iff]
  constructor
  · rintro ⟨v, u, hu, hv⟩
    exact ⟨u, hu, v, hv⟩
  · rintro ⟨u, hu, v, hv⟩
    exact ⟨v, u, hu, hv⟩

theorem breaks_of_add {l : EquationLine} (hl : Says expression before l.equation)
    (hadd : add advise l t = .error e) : Breaks before t e := by
  have hclass := Tag.holds_iff (t := t) (k := (Tag.ofText t).toClass)
  rw [add] at hadd
  cases htag : Tag.ofText t with
  | hidden => rw [htag] at hadd; cases hadd
  | restriction _ => rw [htag] at hadd; cases hadd
  | style s =>
    rw [htag] at hadd hclass
    dsimp only at hadd
    split at hadd
    · next first hfirst =>
      cases hadd
      obtain ⟨u, hu, hfirst⟩ := (hl.style first).mp hfirst
      exact .style hu hfirst (hclass.mpr rfl)
    · cases hadd
  | color c =>
    rw [htag] at hadd hclass
    dsimp only at hadd
    split at hadd
    · next hsome =>
      cases hadd
      obtain ⟨u, hu, hcolor⟩ := hl.isSome_color_iff.mp hsome
      exact .color hu hcolor (hclass.mpr rfl)
    · cases hadd
  | ownLabel =>
    rw [htag] at hadd hclass
    dsimp only at hadd
    split at hadd
    · next hsome =>
      cases hadd
      obtain ⟨u, hu, hlabel⟩ := hl.isSome_label_iff.mp hsome
      exact .label hu hlabel (hclass.mpr rfl)
    · cases hadd
  | label v =>
    rw [htag] at hadd hclass
    dsimp only at hadd
    split at hadd
    · next hsome =>
      cases hadd
      obtain ⟨u, hu, hlabel⟩ := hl.isSome_label_iff.mp hsome
      exact .label hu hlabel (hclass.mpr rfl)
    · next hnone =>
      split at hadd
      · next hnil =>
        cases hadd
        rw [List.isEmpty_iff.mp hnil, Tag.ofText_eq_label_iff] at htag
        exact .text (fun u hu hlabel => hnone (hl.isSome_label_iff.mpr ⟨u, hu, hlabel⟩))
          htag.1 htag.2
      · cases hadd

theorem Breaks.add_eq {l : EquationLine} (hl : Says expression before l.equation)
    (h : Breaks before t e) : add advise l t = .error e := by
  cases h with
  | @style u first hu hfirst ht =>
    obtain ⟨s, hs⟩ := Option.isSome_iff_exists.mp ht
    rw [add, Tag.ofText_of_named? hs]
    simp only [(hl.style first).mpr ⟨u, hu, hfirst⟩]
  | color hu hcolor ht =>
    obtain ⟨c, hc⟩ := Option.isSome_iff_exists.mp ht
    rw [add, Tag.ofText_of_parse? hc]
    simp only [hl.isSome_color_iff.mpr ⟨_, hu, hcolor⟩, if_true]
  | label hu hlabel ht =>
    have hsome := hl.isSome_label_iff.mpr ⟨_, hu, hlabel⟩
    rcases ht with ht | ht
    · rw [add, Tag.ofText_of_upper_label ht]
      simp only [hsome, if_true]
    · rw [add, Tag.ofText_of_prefixed ht]
      simp only [hsome, if_true]
  | text hbefore hlabel ht =>
    have hnone : ¬ l.equation.label.isSome = true := by
      intro hsome
      obtain ⟨u, hu, hku⟩ := hl.isSome_label_iff.mp hsome
      exact hbefore u hu hku
    rw [add, Tag.ofText_eq_label_iff.mpr ⟨hlabel, ht⟩]
    simp only [if_neg hnone, List.isEmpty_nil, if_true]

theorem add_eq_error_iff {l : EquationLine} (hl : Says expression before l.equation) :
    add advise l t = .error e ↔ Breaks before t e :=
  ⟨breaks_of_add hl, Breaks.add_eq hl⟩

theorem foldlM_add_eq_ok_iff {l : EquationLine} :
    tags.foldlM (add advise) (ofTags advise expression []) = .ok l ↔
      Admissible tags ∧ l = ofTags advise expression (tags.map Tag.ofText) := by
  -- from the last tag: it is admitted or not by what the tags before it say together
  induction tags using List.reverseRecOn generalizing l with
  | nil =>
    have hnil : Admissible [] := admissible_iff.mpr ⟨⟨by simp, by simp, by simp⟩, by simp⟩
    constructor
    · intro h
      cases h
      exact ⟨hnil, rfl⟩
    · intro h
      rw [h.2]
      rfl
  | append_singleton before t ih =>
    rw [List.foldlM_append, bind_eq_ok_iff]
    constructor
    · rintro ⟨m, hm, hadd⟩
      obtain ⟨hbefore, hm⟩ := ih.mp hm
      rw [List.foldlM_cons, bind_eq_ok_iff] at hadd
      obtain ⟨n, hadd, hn⟩ := hadd
      cases hn
      have hsays : Says expression before m.equation := hm ▸ says_ofTags hbefore
      have hconcat : Admissible (before ++ [t]) := by
        apply hbefore.concat
        intro e hbreaks
        rw [(add_eq_error_iff hsays).mpr hbreaks] at hadd
        cases hadd
      refine ⟨hconcat, ?_⟩
      rw [hm, add_ofTags_segment hconcat] at hadd
      exact (Except.ok.inj hadd).symm
    · rintro ⟨hconcat, hl⟩
      refine ⟨_, ih.mpr ⟨hconcat.left, rfl⟩, ?_⟩
      rw [List.foldlM_cons, add_ofTags_segment hconcat, hl]
      rfl

theorem parse_eq_of_segments {line : Text} (h : segments line = expression :: tags) :
    parse advise line = tags.foldlM (add advise) (ofTags advise expression []) := by
  rw [parse, h]
  rfl

theorem parse_eq_ok_iff {line : Text} {l : EquationLine} :
    parse advise line = .ok l ↔ ∃ expression tags, segments line = expression :: tags ∧
      Admissible tags ∧ l = ofTags advise expression (tags.map Tag.ofText) := by
  cases hline : segments line with
  | nil =>
    rw [parse, hline]
    simp
  | cons expression tags =>
    rw [parse_eq_of_segments hline, foldlM_add_eq_ok_iff]
    simp

theorem parse_eq_error_iff {line : Text} :
    parse advise line = .error e ↔ segments line = [] ∧ e = .noExpression line ∨
      ∃ expression before t after, segments line = expression :: (before ++ t :: after) ∧
        Admissible before ∧ Breaks before t e := by
  cases hline : segments line with
  | nil =>
    rw [parse, hline]
    simp [eq_comm]
  | cons expression tags =>
    rw [parse_eq_of_segments hline, foldlM_eq_error_iff]
    constructor
    · rintro ⟨before, t, after, l, htags, hl, hadd⟩
      obtain ⟨hbefore, hl⟩ := foldlM_add_eq_ok_iff.mp hl
      have hsays : Says expression before l.equation := hl ▸ says_ofTags hbefore
      exact .inr ⟨expression, before, t, after, by rw [htags], hbefore,
        (add_eq_error_iff hsays).mp hadd⟩
    · rintro (⟨hnil, -⟩ | ⟨x, before, t, after, hcons, hbefore, hbreaks⟩)
      · cases hnil
      · cases hcons
        exact ⟨before, t, after, _, rfl, foldlM_add_eq_ok_iff.mpr ⟨hbefore, rfl⟩,
          (add_eq_error_iff (says_ofTags hbefore)).mpr hbreaks⟩

theorem add_map_equation {l m : EquationLine} (h : l.equation = m.equation) (segment : Text) :
    (add advise l segment).map equation = (add advise' m segment).map equation := by
  rw [add, add, h]
  cases Tag.ofText segment with
  | hidden => rfl
  | style s => cases m.equation.style <;> rfl
  | color c => cases m.equation.color <;> rfl
  | ownLabel => cases m.equation.label <;> rfl
  | label t => cases m.equation.label <;> cases t <;> rfl
  | restriction t => rfl

theorem parse_map_equation (line : Text) :
    (parse advise line).map equation = (parse advise' line).map equation := by
  rw [parse, parse]
  cases segments line with
  | nil => rfl
  | cons expression tags =>
    exact foldlM_map_congr (fun t _ _ h => add_map_equation h t) tags rfl

/-- The grammar of a line. Every text is a tag of exactly one class, in whatever order the classes
are tried; a line is read exactly when it has an expression and its tags are admissible, and is then
what these say; and otherwise the leftmost tag that breaks a rule decides why it is refused. -/
theorem parse_grammar (advise : Text → Option Hint) (line : Text) :
    (∀ t, ∃! k : Tag.Class, k.Holds t) ∧
    (∀ order : List Tag.Class, (∀ k, k ≠ .restriction → k ∈ order) →
      ∀ t, Tag.ofTextBy order t = Tag.ofText t) ∧
    ((∃ l, parse advise line = .ok l) ↔
      ∃ expression tags, segments line = expression :: tags ∧ Admissible tags) ∧
    (∀ l, parse advise line = .ok l →
      ∃ expression tags, segments line = expression :: tags ∧ Says expression tags l.equation) ∧
    ∀ e, parse advise line = .error e ↔ segments line = [] ∧ e = .noExpression line ∨
      ∃ expression before t after, segments line = expression :: (before ++ t :: after) ∧
        Admissible before ∧ Breaks before t e := by
  refine ⟨Tag.existsUnique_holds, fun _ horder => Tag.ofTextBy_eq horder, ?_, ?_,
    fun _ => parse_eq_error_iff⟩
  · constructor
    · rintro ⟨l, hl⟩
      obtain ⟨expression, tags, hline, htags, -⟩ := parse_eq_ok_iff.mp hl
      exact ⟨expression, tags, hline, htags⟩
    · rintro ⟨expression, tags, hline, htags⟩
      exact ⟨_, parse_eq_ok_iff.mpr ⟨expression, tags, hline, htags, rfl⟩⟩
  · intro l hl
    obtain ⟨expression, tags, hline, htags, heq⟩ := parse_eq_ok_iff.mp hl
    exact ⟨expression, tags, hline, heq ▸ says_ofTags htags⟩

/-- A label without a text that is also a second label is refused as a second label, and a name
spelled with a dotless letter is a color in every order. -/
theorem parse_grammar_second_label :
    parse (fun _ => none) "y=x|label|hidden|x<1|label: |hidden" = .error .duplicateLabel ∧
      Tag.ofTextBy [.label, .color, .style, .hidden] "whıte" = .color (.named .white) := by
  obtain ⟨-, horder, -, -, herror⟩ :=
    parse_grammar (fun _ => none) "y=x|label|hidden|x<1|label: |hidden"
  constructor
  · rw [herror]
    refine .inr ⟨"y=x", ["label", "hidden", "x<1"], "label:", ["hidden"], by decide, ?_,
      .label (u := "label") (by decide) (by decide) (by decide)⟩
    refine ⟨by decide, by decide, by decide, ?_⟩
    have hnone : ∀ t ∈ [("label" : Text), "hidden", "x<1"],
        ¬ "LABEL:".toList <+: Text.upper t := by decide
    exact fun t ht hstart => absurd hstart (hnone t ht)
  · have hall : ∀ k : Tag.Class, k ≠ .restriction →
        k ∈ [Tag.Class.label, .color, .style, .hidden] := by
      intro k hk
      cases k <;> first | decide | exact absurd rfl hk
    rw [horder _ hall]
    decide

end EquationLine

end GraphBlock
