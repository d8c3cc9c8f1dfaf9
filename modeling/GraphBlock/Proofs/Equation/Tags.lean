import GraphBlock.Proofs.Equation.Tag

namespace GraphBlock

theorem filterMap_concat {α β : Type} (f : α → Option β) (l : List α) (a : α) :
    (l ++ [a]).filterMap f = l.filterMap f ++ (f a).toList := by
  rw [List.filterMap_append, List.filterMap_cons]
  cases f a <;> rfl

theorem findSome?_eq_some_iff_of_length {α β : Type} {f : α → Option β} {l : List α} {b : β}
    (h : (l.filterMap f).length ≤ 1) : l.findSome? f = some b ↔ ∃ a ∈ l, f a = some b := by
  rw [← List.head?_filterMap, ← List.mem_filterMap]
  cases hl : l.filterMap f with
  | nil => simp
  | cons c m =>
    have hm : m = [] := by
      rw [hl, List.length_cons] at h
      exact List.eq_nil_of_length_eq_zero (by omega)
    rw [hm, List.head?_cons, List.mem_singleton, Option.some.injEq, eq_comm]

theorem findSome?_eq_of_perm {α β : Type} {f : α → Option β} {l m : List α} (hperm : l.Perm m)
    (h : (l.filterMap f).length ≤ 1) : l.findSome? f = m.findSome? f := by
  have hm : (m.filterMap f).length ≤ 1 := by rwa [← (hperm.filterMap f).length_eq]
  ext b
  rw [findSome?_eq_some_iff_of_length h, findSome?_eq_some_iff_of_length hm]
  simp only [hperm.mem_iff]

namespace Tag

@[simp] def style? : Tag → Option Style
  | style s => some s
  | _ => none

@[simp] def color? : Tag → Option Color
  | color c => some c
  | _ => none

@[simp] def label? : Tag → Option Text
  | ownLabel => some []
  | label t => some t
  | _ => none

@[simp] def restriction? : Tag → Option Text
  | restriction t => some t
  | _ => none

/-- Tags of one line: at most one style, one color and one label. -/
structure Compatible (tags : List Tag) : Prop where
  style : (tags.filterMap style?).length ≤ 1
  color : (tags.filterMap color?).length ≤ 1
  label : (tags.filterMap label?).length ≤ 1

theorem Compatible.left {tags more : List Tag} (h : Compatible (tags ++ more)) :
    Compatible tags := by
  obtain ⟨hstyle, hcolor, hlabel⟩ := h
  rw [List.filterMap_append, List.length_append] at hstyle hcolor hlabel
  exact ⟨by omega, by omega, by omega⟩

theorem findSome?_concat {α : Type} (f : Tag → Option α) (tags : List Tag) (tag : Tag) :
    (tags ++ [tag]).findSome? f = (tags.findSome? f).or (f tag) := by
  rw [List.findSome?_append, List.findSome?_singleton]

theorem findSome?_eq_none_of_room {α : Type} {f : Tag → Option α} {tags : List Tag} {tag : Tag}
    (hroom : ((tags ++ [tag]).filterMap f).length ≤ 1) (htag : (f tag).isSome = true) :
    tags.findSome? f = none := by
  obtain ⟨a, ha⟩ := Option.isSome_iff_exists.mp htag
  have hnil : tags.filterMap f = [] := by
    rw [filterMap_concat, ha, Option.toList_some, List.length_append, List.length_singleton]
      at hroom
    exact List.eq_nil_of_length_eq_zero (by omega)
  rw [← List.head?_filterMap, hnil]
  rfl

end Tag

namespace EquationLine

variable {advise : Text → Option Hint} {expression : Text} {tags : List Tag}

def restrictions? (tags : List Tag) : Option (List Text) :=
  match tags.filterMap Tag.restriction? with
  | [] => none
  | ts => some ts

def hint? (advise : Text → Option Hint) (tags : List Tag) : Option Hint :=
  ((tags.filterMap Tag.restriction?).filterMap advise).getLast?

/-- What an expression and compatible tags say together. -/
def ofTags (advise : Text → Option Hint) (expression : Text) (tags : List Tag) : EquationLine where
  equation :=
    { expression := expression
      restrictions := restrictions? tags
      style := tags.findSome? Tag.style?
      color := tags.findSome? Tag.color?
      hidden := if Tag.hidden ∈ tags then some true else none
      label := tags.findSome? Tag.label? }
  hint := hint? advise tags

theorem getD_restrictions? (tags : List Tag) :
    (restrictions? tags).getD [] = tags.filterMap Tag.restriction? := by
  rw [restrictions?]
  split
  · next h => rw [h]; rfl
  · rfl

theorem restrictions?_concat (tags : List Tag) (tag : Tag) :
    restrictions? (tags ++ [tag]) =
      tag.restriction?.elim (restrictions? tags) fun t =>
        some ((restrictions? tags).getD [] ++ [t]) := by
  rw [getD_restrictions?, restrictions?, filterMap_concat]
  cases tag.restriction? with
  | none => rw [Option.toList_none, List.append_nil]; rfl
  | some t => cases tags.filterMap Tag.restriction? <;> rfl

theorem hint?_concat (advise : Text → Option Hint) (tags : List Tag) (tag : Tag) :
    hint? advise (tags ++ [tag]) =
      tag.restriction?.elim (hint? advise tags) fun t => (advise t).or (hint? advise tags) := by
  rw [hint?, filterMap_concat]
  cases tag.restriction? with
  | none => rw [Option.toList_none, List.append_nil]; rfl
  | some t =>
    change _ = (advise t).or (hint? advise tags)
    rw [Option.toList_some, filterMap_concat, List.getLast?_append]
    cases advise t <;> rfl

theorem add_ofTags {tag : Tag} {segment : Text} (hread : Tag.ofText segment = tag)
    (hlabel : tag ≠ .label []) (hcompatible : Tag.Compatible (tags ++ [tag])) :
    add advise (ofTags advise expression tags) segment =
      .ok (ofTags advise expression (tags ++ [tag])) := by
  simp only [ofTags, restrictions?_concat, hint?_concat, Tag.findSome?_concat]
  cases tag with
  | hidden =>
    simp [add, hread]
  | style s =>
    have hnone := Tag.findSome?_eq_none_of_room hcompatible.style rfl
    simp [add, hread, hnone]
  | color c =>
    have hnone := Tag.findSome?_eq_none_of_room hcompatible.color rfl
    simp [add, hread, hnone]
  | ownLabel =>
    have hnone := Tag.findSome?_eq_none_of_room hcompatible.label rfl
    simp [add, hread, hnone]
  | label t =>
    have hnone := Tag.findSome?_eq_none_of_room hcompatible.label rfl
    have hne : t ≠ [] := fun h => hlabel (congrArg Tag.label h)
    simp [add, hread, hnone, hne]
  | restriction t =>
    simp [add, hread]

theorem add_written {tag : Tag} (htag : tag.WellFormed)
    (hcompatible : Tag.Compatible (tags ++ [tag])) :
    add advise (ofTags advise expression tags) tag.written =
      .ok (ofTags advise expression (tags ++ [tag])) := by
  apply add_ofTags (Tag.ofText_written htag) _ hcompatible
  intro h
  rw [h] at htag
  exact IsSegment.ne_nil htag rfl

theorem foldlM_add_written (tags : List Tag) {more : List Tag}
    (hmore : ∀ tag ∈ more, tag.WellFormed)
    (hcompatible : Tag.Compatible (tags ++ more)) :
    (more.map Tag.written).foldlM (add advise) (ofTags advise expression tags) =
      .ok (ofTags advise expression (tags ++ more)) := by
  induction more generalizing tags with
  | nil =>
    rw [List.append_nil]
    rfl
  | cons tag more ih =>
    rw [List.append_cons] at hcompatible ⊢
    rw [List.map_cons, List.foldlM_cons,
      add_written (hmore tag List.mem_cons_self) hcompatible.left]
    exact ih _ (fun t ht => hmore t (List.mem_cons_of_mem _ ht)) hcompatible

end EquationLine

end GraphBlock
