import GraphBlock.Proofs.Equation.Tags
import GraphBlock.Proofs.Text.Parts

namespace GraphBlock

/-- An equation whose expression, restrictions and label can stand on its line, a restriction being
no other tag. -/
structure Equation.WellFormed (e : Equation) : Prop where
  expression : IsSegment e.expression
  restrictions_ne : e.restrictions ≠ some []
  restrictions : ∀ rs, e.restrictions = some rs → ∀ r ∈ rs, (Tag.restriction r).WellFormed
  color : ∀ c, e.color = some c → c.Readable
  hidden : e.hidden ≠ some false
  label : ∀ t, e.label = some t → t = [] ∨ IsSegment t

def Equation.hint? (advise : Text → Option Hint) (e : Equation) : Option Hint :=
  ((e.restrictions.getD []).filterMap advise).getLast?

/-- The tags of an equation in some order that keeps the restrictions in theirs. -/
structure Equation.TaggedAs (e : Equation) (tags : List Tag) : Prop where
  perm : tags.Perm e.tags
  restrictions : tags.filterMap Tag.restriction? = e.restrictions.getD []

namespace Equation

variable {e : Equation} {tags : List Tag}

theorem filterMap_tags {α : Type} (f : Tag → Option α) (hhidden : f .hidden = none) (e : Equation) :
    e.tags.filterMap f =
      (e.restrictions.getD []).filterMap (fun r => f (.restriction r)) ++
        e.style.toList.filterMap (fun s => f (.style s)) ++
        e.color.toList.filterMap (fun c => f (.color c)) ++
        e.label.toList.filterMap (fun t => f (.ofLabel t)) := by
  have hhidden : (if e.hidden = some true then [Tag.hidden] else []).filterMap f = [] := by
    split
    · rw [List.filterMap_cons, hhidden]; rfl
    · rfl
  rw [tags, List.filterMap_append, List.filterMap_append, List.filterMap_append,
    List.filterMap_append, hhidden, List.append_nil]
  simp only [List.filterMap_map]
  rfl

theorem style?_tags (e : Equation) : e.tags.filterMap Tag.style? = e.style.toList := by
  rw [filterMap_tags _ rfl]
  rcases e.label with _ | _ | ⟨c, t⟩ <;> simp [Tag.ofLabel]

theorem color?_tags (e : Equation) : e.tags.filterMap Tag.color? = e.color.toList := by
  rw [filterMap_tags _ rfl]
  rcases e.label with _ | _ | ⟨c, t⟩ <;> simp [Tag.ofLabel]

theorem label?_tags (e : Equation) : e.tags.filterMap Tag.label? = e.label.toList := by
  rw [filterMap_tags _ rfl]
  rcases e.label with _ | _ | ⟨c, t⟩ <;> simp [Tag.ofLabel]

theorem hidden_mem_tags {e : Equation} : Tag.hidden ∈ e.tags ↔ e.hidden = some true := by
  have hlabel : ∀ t, Tag.ofLabel t ≠ .hidden := by
    intro t
    cases t <;> exact fun h => by cases h
  simp [tags, hlabel]

theorem WellFormed.tag (he : e.WellFormed) {tag : Tag} (htag : tag ∈ e.tags) : tag.WellFormed := by
  simp only [Equation.tags, List.mem_append, List.mem_map, Option.mem_toList] at htag
  rcases htag with (((⟨r, hr, htag⟩ | ⟨s, -, htag⟩) | ⟨c, hc, htag⟩) | htag) | ⟨t, ht, htag⟩
  · rw [← htag]
    cases hrs : e.restrictions with
    | none =>
      rw [hrs] at hr
      cases hr
    | some rs =>
      rw [hrs] at hr
      exact he.restrictions rs hrs r hr
  · rw [← htag]
    exact trivial
  · rw [← htag]
    exact he.color c hc
  · split at htag
    · rw [List.mem_singleton.mp htag]
      exact trivial
    · cases htag
  · rw [← htag]
    cases t with
    | nil => exact trivial
    | cons c t => exact (he.label _ ht).resolve_left (List.cons_ne_nil c t)

theorem TaggedAs.wellFormed (he : e.WellFormed) (h : e.TaggedAs tags) :
    ∀ tag ∈ tags, tag.WellFormed := fun _ htag => he.tag (h.perm.mem_iff.mp htag)

theorem TaggedAs.filterMap_eq {α : Type} {f : Tag → Option α} {o : Option α} (h : e.TaggedAs tags)
    (hf : e.tags.filterMap f = o.toList) : tags.filterMap f = o.toList := by
  have hperm := h.perm.filterMap f
  rw [hf] at hperm
  cases o with
  | none => exact List.perm_nil.mp hperm
  | some a => exact List.perm_singleton.mp hperm

theorem TaggedAs.findSome?_eq {α : Type} {f : Tag → Option α} {o : Option α} (h : e.TaggedAs tags)
    (hf : e.tags.filterMap f = o.toList) : tags.findSome? f = o := by
  calc tags.findSome? f
      = (tags.filterMap f).head? := List.head?_filterMap.symm
    _ = o.toList.head? := by rw [h.filterMap_eq hf]
    _ = o := by cases o <;> rfl

theorem TaggedAs.compatible (h : e.TaggedAs tags) : Tag.Compatible tags := by
  have hlength : ∀ {α : Type} (o : Option α), o.toList.length ≤ 1 := by
    intro α o
    cases o <;> simp
  constructor
  · rw [h.filterMap_eq (style?_tags e)]
    exact hlength _
  · rw [h.filterMap_eq (color?_tags e)]
    exact hlength _
  · rw [h.filterMap_eq (label?_tags e)]
    exact hlength _

theorem TaggedAs.restrictions?_eq (he : e.WellFormed) (h : e.TaggedAs tags) :
    EquationLine.restrictions? tags = e.restrictions := by
  rw [EquationLine.restrictions?, h.restrictions]
  cases hrs : e.restrictions with
  | none => rfl
  | some rs =>
    cases rs with
    | nil => exact absurd hrs he.restrictions_ne
    | cons r rs => rfl

theorem TaggedAs.hidden_eq (he : e.WellFormed) (h : e.TaggedAs tags) :
    (if Tag.hidden ∈ tags then some true else none) = e.hidden := by
  have hmem : Tag.hidden ∈ tags ↔ e.hidden = some true := h.perm.mem_iff.trans hidden_mem_tags
  split
  · next hin => exact (hmem.mp hin).symm
  · next hout =>
    have hhidden := mt hmem.mpr hout
    match hvalue : e.hidden with
    | none => rfl
    | some true => exact absurd hvalue hhidden
    | some false => exact absurd hvalue he.hidden

theorem TaggedAs.ofTags_eq (advise : Text → Option Hint) (he : e.WellFormed) (h : e.TaggedAs tags) :
    EquationLine.ofTags advise e.expression tags = ⟨e, e.hint? advise⟩ := by
  rw [EquationLine.ofTags, EquationLine.hint?, hint?, h.restrictions, h.restrictions?_eq he,
    h.hidden_eq he, h.findSome?_eq (style?_tags e), h.findSome?_eq (color?_tags e),
    h.findSome?_eq (label?_tags e)]

end Equation

namespace EquationLine

theorem isPart_bar {t : Text} (h : IsSegment t) : Text.IsPart (· == '|') t :=
  ⟨h.ne_nil, h.trimmed, fun _ hc => beq_eq_false_iff_ne.mpr fun heq => h.not_bar (heq ▸ hc)⟩

variable {tags : List Tag} {expression : Text}

theorem write_eq (expression : Text) (tags : List Tag) :
    write expression tags = expression ++ (tags.map Tag.written).flatMap fun t => '|' :: t := by
  rw [write, List.flatMap_map]

theorem isSegment_of_mem (htags : ∀ tag ∈ tags, tag.WellFormed) :
    ∀ t ∈ tags.map Tag.written, IsSegment t := by
  intro t ht
  obtain ⟨tag, htag, heq⟩ := List.mem_map.mp ht
  rw [← heq]
  exact Tag.isSegment_written (htags tag htag)

theorem segments_write (hexpression : IsSegment expression)
    (htags : ∀ tag ∈ tags, tag.WellFormed) :
    segments (write expression tags) = expression :: tags.map Tag.written := by
  rw [segments, write_eq]
  exact Text.parts_joined rfl (isPart_bar hexpression)
    fun t ht => isPart_bar (isSegment_of_mem htags t ht)

theorem isPart_write (hexpression : IsSegment expression)
    (htags : ∀ tag ∈ tags, tag.WellFormed) :
    Text.IsPart Text.isLineBreak (write expression tags) := by
  rw [write_eq]
  refine ⟨List.append_ne_nil_of_left_ne_nil hexpression.ne_nil _, ?_, ?_⟩
  · exact Text.trim_joined (isPart_bar hexpression)
      fun t ht => isPart_bar (isSegment_of_mem htags t ht)
  · intro c hc
    rw [List.mem_append, List.mem_flatMap] at hc
    rcases hc with hc | ⟨t, ht, hc⟩
    · exact hexpression.not_break c hc
    · rcases List.mem_cons.mp hc with hc | hc
      · rw [hc]
        decide
      · exact (isSegment_of_mem htags t ht).not_break c hc

theorem not_infix_write (hexpression : IsSegment expression)
    (htags : ∀ tag ∈ tags, tag.WellFormed) : ¬ Source.delimiter <:+: write expression tags := by
  rw [write_eq]
  exact Source.not_infix_joined (by decide) hexpression.not_infix
    fun t ht => IsSegment.not_infix (isSegment_of_mem htags t ht)

/-- The line of an equation is read as the equation, with the hint of its last restriction that
earns one. -/
theorem parse_written (advise : Text → Option Hint) {e : Equation} (he : e.WellFormed)
    (h : e.TaggedAs tags) :
    parse advise (write e.expression tags) = .ok ⟨e, e.hint? advise⟩ := by
  calc parse advise (write e.expression tags)
      = (tags.map Tag.written).foldlM (add advise) (ofTags advise e.expression []) := by
        rw [parse, segments_write he.expression (h.wellFormed he)]
        rfl
    _ = .ok (ofTags advise e.expression tags) :=
      foldlM_add_written [] (h.wellFormed he) h.compatible
    _ = .ok ⟨e, e.hint? advise⟩ := by rw [h.ofTags_eq advise he]

end EquationLine

end GraphBlock
