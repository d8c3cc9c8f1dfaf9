import GraphBlock.Proofs.Text.Pieces
import GraphBlock.Proofs.Text.Trim
import Mathlib.Data.List.Forall2

namespace GraphBlock.Text

def Padded (isPadding : Char → Bool) (t p : Text) : Prop :=
  ∃ a b, (∀ c ∈ a, isPadding c = true) ∧ (∀ c ∈ b, isPadding c = true) ∧ p = a ++ t ++ b

variable {α : Type} {isDelimiter isPadding : Char → Bool} {Stands : α → Text → Prop}
  {as bs : List α} {a b p t : Text}

/-- What a piece holds: padding alone, or one item. -/
inductive Holds (isPadding : Char → Bool) (Stands : α → Text → Prop) : List α → Text → Prop
  | padding {p : Text} (h : ∀ c ∈ p, isPadding c = true) : Holds isPadding Stands [] p
  | item {a : α} {p : Text} (h : Stands a p) : Holds isPadding Stands [a] p

/-- A text whose pieces hold the items in order. -/
inductive LaidOut (isDelimiter isPadding : Char → Bool) (Stands : α → Text → Prop) :
    List α → Text → Prop
  | last {as : List α} {p : Text} (h : Holds isPadding Stands as p) :
      LaidOut isDelimiter isPadding Stands as p
  | closed {as bs : List α} {p t : Text} {d : Char} (h : Holds isPadding Stands as p)
      (hd : isDelimiter d = true) (rest : LaidOut isDelimiter isPadding Stands bs t) :
      LaidOut isDelimiter isPadding Stands (as ++ bs) (p ++ d :: t)

theorem Padded.self (t : Text) : Padded isPadding t t := ⟨[], [], by simp, by simp, by simp⟩

theorem Padded.trim_eq (h : Padded isPadding t p) (hblank : ∀ c, isPadding c = true → isBlank c)
    (ht : trim t = t) : trim p = t := by
  obtain ⟨a, b, ha, hb, hp⟩ := h
  rw [hp]
  exact trimBy_pad (fun c hc => hblank c (ha c hc)) (fun c hc => hblank c (hb c hc)) ht

theorem Padded.forall_mem {P : Char → Prop} (h : Padded isPadding t p)
    (hpadding : ∀ c, isPadding c = true → P c) (ht : ∀ c ∈ t, P c) : ∀ c ∈ p, P c := by
  obtain ⟨a, b, ha, hb, hp⟩ := h
  intro c hc
  rw [hp, List.mem_append, List.mem_append] at hc
  rcases hc with (hc | hc) | hc
  · exact hpadding c (ha c hc)
  · exact ht c hc
  · exact hpadding c (hb c hc)

theorem parts_piece (h : ∀ c ∈ p, isDelimiter c = false) :
    parts isDelimiter p = if trim p = [] then [] else [trim p] := by
  rw [parts, Pieces.cut_eq_last h, Pieces.toList]
  split <;> simp [*]

theorem parts_append_cons {d : Char} (t : Text) (h : ∀ c ∈ p, isDelimiter c = false)
    (hd : isDelimiter d = true) :
    parts isDelimiter (p ++ d :: t) = parts isDelimiter p ++ parts isDelimiter t := by
  rw [parts, Pieces.cut_append_cons _ h hd, Pieces.toList, List.map_cons, parts_piece h, parts]
  split <;> simp [*]

theorem parts_append {d : Char} (t u : Text) (hd : isDelimiter d = true) :
    parts isDelimiter (t ++ d :: u) = parts isDelimiter t ++ parts isDelimiter u := by
  have hps := Pieces.proper_cut isDelimiter t
  rw [← Pieces.text_cut isDelimiter t]
  generalize Pieces.cut isDelimiter t = ps at hps ⊢
  induction ps with
  | last p => exact parts_append_cons u hps hd
  | closed p e rest ih =>
    obtain ⟨hp, he, hrest⟩ := hps
    rw [Pieces.text, List.append_assoc, List.cons_append, parts_append_cons _ hp he, ih hrest,
      parts_append_cons _ hp he, List.append_assoc]

theorem parts_pad (ha : ∀ c ∈ a, isBlank c = true ∧ isDelimiter c = false)
    (hb : ∀ c ∈ b, isBlank c = true ∧ isDelimiter c = false) (t : Text) :
    parts isDelimiter (a ++ t ++ b) = parts isDelimiter t := by
  have hpiece : ∀ {a b p : Text}, (∀ c ∈ a, isBlank c = true ∧ isDelimiter c = false) →
      (∀ c ∈ b, isBlank c = true ∧ isDelimiter c = false) → (∀ c ∈ p, isDelimiter c = false) →
      parts isDelimiter (a ++ p ++ b) = parts isDelimiter p := by
    intro a b p ha hb hp
    have hwhole : ∀ c ∈ a ++ p ++ b, isDelimiter c = false := by
      intro c hc
      rw [List.mem_append, List.mem_append] at hc
      rcases hc with (hc | hc) | hc
      · exact (ha c hc).2
      · exact hp c hc
      · exact (hb c hc).2
    rw [parts_piece hwhole, parts_piece hp, trim,
      trimBy_append (fun c hc => (ha c hc).1) (fun c hc => (hb c hc).1), trim]
  have hps := Pieces.proper_cut isDelimiter t
  rw [← Pieces.text_cut isDelimiter t]
  generalize Pieces.cut isDelimiter t = ps at hps ⊢
  -- what stands in front goes into the first piece, and what stands behind into the last
  induction ps generalizing a with
  | last p => exact hpiece ha hb hps
  | closed p d rest ih =>
    obtain ⟨hp, hd, hrest⟩ := hps
    have hfront : ∀ c ∈ a ++ p, isDelimiter c = false := by
      intro c hc
      exact (List.mem_append.mp hc).elim (fun hc => (ha c hc).2) (hp c)
    have hap : parts isDelimiter (a ++ p) = parts isDelimiter p := by
      simpa using hpiece (b := []) ha (by simp) hp
    have hrb : parts isDelimiter (rest.text ++ b) = parts isDelimiter rest.text := by
      simpa using ih (a := []) (by simp) hrest
    calc parts isDelimiter (a ++ (p ++ d :: rest.text) ++ b)
        = parts isDelimiter (a ++ p ++ d :: (rest.text ++ b)) := by simp
      _ = parts isDelimiter p ++ parts isDelimiter rest.text := by
        rw [parts_append_cons _ hfront hd, hap, hrb]
      _ = parts isDelimiter (p ++ d :: rest.text) := (parts_append_cons _ hp hd).symm

theorem parts_eq_nil_iff :
    parts isDelimiter t = [] ↔ ∀ c ∈ t, isDelimiter c = true ∨ isBlank c = true := by
  have hps := Pieces.proper_cut isDelimiter t
  have htext : (Pieces.cut isDelimiter t).text = t := Pieces.text_cut isDelimiter t
  rw [parts, List.filter_eq_nil_iff, List.forall_mem_map]
  constructor
  · intro h c hc
    rw [← htext] at hc
    refine (hps.mem_text hc).imp_right ?_
    rintro ⟨p, hp, hcp⟩
    have hnil : trim p = [] := by simpa using h p hp
    exact trimBy_eq_nil_iff.mp hnil c hcp
  · intro h p hp
    have hnil : trim p = [] := by
      refine trimBy_eq_nil_iff.mpr fun c hc => ?_
      have hct : c ∈ t := htext ▸ (Pieces.infix_text hp).subset hc
      refine (h c hct).resolve_left ?_
      rw [hps.not_delimiter hp c hc]
      exact Bool.false_ne_true
    simp [hnil]

theorem parts_around (ha : ∀ d ∈ a.getLast?, isDelimiter d = true)
    (hb : ∀ d ∈ b.head?, isDelimiter d = true) (t : Text) :
    parts isDelimiter (a ++ t ++ b) =
      parts isDelimiter a ++ parts isDelimiter t ++ parts isDelimiter b := by
  have hfront : ∀ t, parts isDelimiter (a ++ t) = parts isDelimiter a ++ parts isDelimiter t := by
    intro t
    cases a using List.reverseRecOn with
    | nil => rfl
    | append_singleton a d =>
      have hd : isDelimiter d = true := ha d (List.getLast?_concat)
      have hends : parts isDelimiter (a ++ [d]) = parts isDelimiter a :=
        (parts_append a [] hd).trans (List.append_nil _)
      rw [hends, List.append_assoc, List.singleton_append, parts_append a t hd]
  cases b with
  | nil => rw [List.append_nil, hfront]; exact (List.append_nil _).symm
  | cons d b =>
    have hd : isDelimiter d = true := hb d rfl
    have hopens : parts isDelimiter (d :: b) = parts isDelimiter b := parts_append [] b hd
    rw [parts_append (a ++ t) b hd, hfront, hopens]

theorem parts_trim (h : ∀ c, isBlank c = true → isDelimiter c = false) (t : Text) :
    parts isDelimiter (trim t) = parts isDelimiter t := by
  obtain ⟨a, b, ha, hb, heq⟩ := exists_pad isBlank t
  conv_rhs => rw [heq]
  exact (parts_pad (fun c hc => ⟨ha c hc, h c (ha c hc)⟩)
    (fun c hc => ⟨hb c hc, h c (hb c hc)⟩) _).symm

def IsPadding (isDelimiter isPadding : Char → Bool) : Prop :=
  ∀ c, isPadding c = true → isBlank c = true ∧ isDelimiter c = false

theorem Holds.not_delimiter (h : Holds isPadding Stands as p)
    (hpadding : IsPadding isDelimiter isPadding)
    (hitems : ∀ a ∈ as, ∀ p, Stands a p → ∀ c ∈ p, isDelimiter c = false) :
    ∀ c ∈ p, isDelimiter c = false := by
  cases h with
  | padding h => exact fun c hc => (hpadding c (h c hc)).2
  | item h => exact hitems _ List.mem_cons_self p h

/-- The parts of a laid out text are those of its items, each trimmed as it stands. -/
theorem LaidOut.forall₂_parts {R : α → Text → Prop}
    (h : LaidOut isDelimiter isPadding Stands as t) (hpadding : IsPadding isDelimiter isPadding)
    (hitems : ∀ a ∈ as, ∀ p, Stands a p → ∀ c ∈ p, isDelimiter c = false)
    (hR : ∀ a ∈ as, ∀ p, Stands a p → trim p ≠ [] ∧ R a (trim p)) :
    List.Forall₂ R as (parts isDelimiter t) := by
  have hpiece : ∀ {as : List α} {p : Text}, Holds isPadding Stands as p →
      (∀ a ∈ as, ∀ p, Stands a p → ∀ c ∈ p, isDelimiter c = false) →
      (∀ a ∈ as, ∀ p, Stands a p → trim p ≠ [] ∧ R a (trim p)) →
      List.Forall₂ R as (parts isDelimiter p) := by
    intro as p h hitems hR
    rw [parts_piece (h.not_delimiter hpadding hitems)]
    cases h with
    | padding h =>
      have hnil : trim p = [] := trimBy_eq_nil_iff.mpr fun c hc => (hpadding c (h c hc)).1
      rw [if_pos hnil]
      exact .nil
    | item h =>
      obtain ⟨hne, hRp⟩ := hR _ List.mem_cons_self p h
      rw [if_neg hne]
      exact .cons hRp .nil
  induction h with
  | last h => exact hpiece h hitems hR
  | closed h hd _ ih =>
    have hfront := fun a ha => hitems a (List.mem_append_left _ ha)
    rw [parts_append_cons _ (h.not_delimiter hpadding hfront) hd]
    exact List.rel_append (hpiece h hfront fun a ha => hR a (List.mem_append_left _ ha))
      (ih (fun a ha => hitems a (List.mem_append_right _ ha))
        fun a ha => hR a (List.mem_append_right _ ha))

theorem LaidOut.filter {q : α → Bool} (h : LaidOut isDelimiter isPadding Stands as t)
    (hq : ∀ a, q a = false → ∀ p, Stands a p → ∀ c ∈ p, isPadding c = true) :
    LaidOut isDelimiter isPadding Stands (as.filter q) t := by
  have hpiece : ∀ {as : List α} {p : Text}, Holds isPadding Stands as p →
      Holds isPadding Stands (as.filter q) p := by
    intro as p h
    cases h with
    | padding h => exact .padding h
    | @item a _ h =>
      cases ha : q a with
      | true => rw [List.filter_cons_of_pos ha]; exact .item h
      | false => rw [List.filter_cons_of_neg (by simp [ha])]; exact .padding (hq a ha p h)
  induction h with
  | last h => exact .last (hpiece h)
  | closed h hd _ ih => rw [List.filter_append]; exact .closed (hpiece h) hd ih

/-- What holds of padding and of each item as it stands, and is kept where two texts are joined by a
delimiter, holds of a laid out text. -/
theorem LaidOut.of_pieces {P : Text → Prop} (h : LaidOut isDelimiter isPadding Stands as t)
    (hpadding : ∀ p, (∀ c ∈ p, isPadding c = true) → P p)
    (hitems : ∀ a ∈ as, ∀ p, Stands a p → P p)
    (hjoin : ∀ p d t, isDelimiter d = true → P p → P t → P (p ++ d :: t)) : P t := by
  have hpiece : ∀ {as : List α} {p : Text}, Holds isPadding Stands as p →
      (∀ a ∈ as, ∀ p, Stands a p → P p) → P p := by
    intro as p h hitems
    cases h with
    | padding h => exact hpadding p h
    | item h => exact hitems _ List.mem_cons_self p h
  induction h with
  | last h => exact hpiece h hitems
  | closed h hd _ ih =>
    exact hjoin _ _ _ hd (hpiece h fun a ha => hitems a (List.mem_append_left _ ha))
      (ih fun a ha => hitems a (List.mem_append_right _ ha))

end GraphBlock.Text
