import GraphBlock.Proofs.Equation.Grammar
import GraphBlock.Proofs.Text.Parts

namespace GraphBlock

namespace EquationLine

variable {advise : Text → Option Hint} {expression : Text} {tags more : List Text}

/-- Tags in another order, the restrictions among them in the same one. -/
structure Rearranged (tags more : List Text) : Prop where
  perm : tags.Perm more
  restrictions : tags.filter (Tag.Class.restriction.Holds ·) =
    more.filter (Tag.Class.restriction.Holds ·)

def joined (expression : Text) (tags : List Text) : Text :=
  expression ++ tags.flatMap fun t => '|' :: t

theorem Rearranged.symm (h : Rearranged tags more) : Rearranged more tags :=
  ⟨h.perm.symm, h.restrictions.symm⟩

theorem Rearranged.admissible (h : Rearranged tags more) (htags : Admissible tags) :
    Admissible more where
  style := h.perm.countP_eq _ ▸ htags.style
  color := h.perm.countP_eq _ ▸ htags.color
  label := h.perm.countP_eq _ ▸ htags.label
  text := fun t ht => htags.text t (h.perm.mem_iff.mpr ht)

/-- What a tag says alone it says in every place, and restrictions say theirs in order. -/
theorem Rearranged.ofTags_eq (h : Rearranged tags more) (htags : Admissible tags) :
    ofTags advise expression (tags.map Tag.ofText) =
      ofTags advise expression (more.map Tag.ofText) := by
  have hperm : (tags.map Tag.ofText).Perm (more.map Tag.ofText) := h.perm.map _
  have hrestrictions : (tags.map Tag.ofText).filterMap Tag.restriction? =
      (more.map Tag.ofText).filterMap Tag.restriction? := by
    rw [filterMap_restriction?, filterMap_restriction?, h.restrictions]
  have hhidden : Tag.hidden ∈ tags.map Tag.ofText ↔ Tag.hidden ∈ more.map Tag.ofText :=
    hperm.mem_iff
  obtain ⟨hstyle, hcolor, hlabel⟩ := (admissible_iff.mp htags).1
  simp only [ofTags, restrictions?, hint?, hrestrictions, hhidden,
    findSome?_eq_of_perm hperm hstyle, findSome?_eq_of_perm hperm hcolor,
    findSome?_eq_of_perm hperm hlabel]

theorem Rearranged.parse_eq_ok (h : Rearranged tags more) {line other : Text} {l : EquationLine}
    (hline : segments line = expression :: tags) (hother : segments other = expression :: more)
    (hl : parse advise line = .ok l) : parse advise other = .ok l := by
  rw [parse_eq_of_segments hline, foldlM_add_eq_ok_iff] at hl
  rw [parse_eq_of_segments hother, foldlM_add_eq_ok_iff]
  exact ⟨h.admissible hl.1, by rw [hl.2, h.ofTags_eq hl.1]⟩

theorem Rearranged.segments_joined (h : Rearranged tags more) {line : Text}
    (hline : segments line = expression :: tags) :
    segments (joined expression more) = expression :: more := by
  have hpart : ∀ t ∈ expression :: tags, Text.IsPart (· == '|') t := by
    intro t ht
    rw [← hline] at ht
    exact (Text.mem_parts ht).1
  obtain ⟨hexpression, htags⟩ := List.forall_mem_cons.mp hpart
  exact Text.parts_joined rfl hexpression fun t ht => htags t (h.perm.mem_iff.mpr ht)

/-- The order of the tags of a line is irrelevant, as long as the restrictions keep theirs. Every
line with the rearranged tags, and there is one, is read where the line is, as the same equation
with the same hint. -/
theorem parse_rearranged (advise : Text → Option Hint) (line expression : Text)
    (tags more : List Text) (hline : segments line = expression :: tags)
    (h : Rearranged tags more) :
    segments (joined expression more) = expression :: more ∧
      ∀ other, segments other = expression :: more →
        ((∃ l, parse advise line = .ok l) ↔ ∃ l, parse advise other = .ok l) ∧
        ∀ l m, parse advise line = .ok l → parse advise other = .ok m →
          l.equation = m.equation ∧ l.hint = m.hint := by
  refine ⟨h.segments_joined hline, fun other hother => ⟨⟨?_, ?_⟩, ?_⟩⟩
  · rintro ⟨l, hl⟩
    exact ⟨l, h.parse_eq_ok hline hother hl⟩
  · rintro ⟨l, hl⟩
    exact ⟨l, h.symm.parse_eq_ok hother hline hl⟩
  · intro l m hl hm
    rw [h.parse_eq_ok hline hother hl] at hm
    cases hm
    exact ⟨rfl, rfl⟩

theorem parse_rearranged_spaced :
    ∃ l m, parse (fun t => some ⟨t, none⟩) "y=x|x<1|hidden|RED|label: a:b |0<x|hidden" = .ok l ∧
      parse (fun t => some ⟨t, none⟩) " y=x | hidden ||label: a:b| hidden|x<1| 0<x |RED" = .ok m ∧
      l.equation = m.equation ∧ l.hint = m.hint ∧ l.hint = some ⟨"0<x", none⟩ := by
  have hparse : parse (fun t => some ⟨t, none⟩) "y=x|x<1|hidden|RED|label: a:b |0<x|hidden" =
      .ok ⟨⟨"y=x", some ["x<1", "0<x"], none, some (.named .red), some true, some "a:b"⟩,
        some ⟨"0<x", none⟩⟩ := by decide +kernel
  obtain ⟨-, horder⟩ := parse_rearranged (fun t => some ⟨t, none⟩)
    "y=x|x<1|hidden|RED|label: a:b |0<x|hidden" "y=x"
    ["x<1", "hidden", "RED", "label: a:b", "0<x", "hidden"]
    ["hidden", "label: a:b", "hidden", "x<1", "0<x", "RED"] (by decide) ⟨by decide, by decide⟩
  obtain ⟨hread, hsame⟩ :=
    horder " y=x | hidden ||label: a:b| hidden|x<1| 0<x |RED" (by decide)
  obtain ⟨m, hm⟩ := hread.mp ⟨_, hparse⟩
  obtain ⟨hequation, hhint⟩ := hsame _ m hparse hm
  exact ⟨_, m, hparse, hm, hequation, hhint, rfl⟩

end EquationLine

end GraphBlock
