import GraphBlock.Proofs.Text.Pieces
import GraphBlock.Proofs.Text.Trim

namespace GraphBlock.Text

variable {isDelimiter : Char → Bool} {d : Char}

theorem toList_cut_joined (hd : isDelimiter d = true) {p : Text} {ps : List Text}
    (hp : ∀ c ∈ p, isDelimiter c = false) (hps : ∀ q ∈ ps, ∀ c ∈ q, isDelimiter c = false) :
    (Pieces.cut isDelimiter (p ++ ps.flatMap fun q => d :: q)).toList = p :: ps := by
  induction ps generalizing p with
  | nil =>
    rw [List.flatMap_nil, List.append_nil, Pieces.cut_eq_last hp]
    rfl
  | cons q ps ih =>
    have hq := hps q List.mem_cons_self
    have hrest : ∀ r ∈ ps, ∀ c ∈ r, isDelimiter c = false := by
      intro r hr
      exact hps r (List.mem_cons_of_mem _ hr)
    rw [List.flatMap_cons, List.cons_append, Pieces.cut_append_cons _ hp hd, Pieces.toList,
      ih hq hrest]

structure IsPart (isDelimiter : Char → Bool) (t : Text) : Prop where
  ne_nil : t ≠ []
  trimmed : trim t = t
  not_delimiter : ∀ c ∈ t, isDelimiter c = false

theorem mem_parts {t text : Text} (h : t ∈ parts isDelimiter text) :
    IsPart isDelimiter t ∧ t <:+: text := by
  obtain ⟨htrim, hne⟩ := List.mem_filter.mp h
  obtain ⟨p, hp, heq⟩ := List.mem_map.mp htrim
  have htp : t <:+: p := by
    rw [← heq]
    exact trimBy_isInfix isBlank p
  have hptext : p <:+: text := by
    rw [← Pieces.text_cut isDelimiter text]
    exact Pieces.infix_text hp
  refine ⟨⟨by simpa using hne, ?_, ?_⟩, htp.trans hptext⟩
  · rw [← heq]
    exact trimBy_trimBy isBlank p
  · intro c hc
    exact (Pieces.proper_cut isDelimiter text).not_delimiter hp c (htp.subset hc)

theorem trimmed_of_parts {ps : List Text} (hps : ∀ q ∈ ps, IsPart isDelimiter q) :
    (ps.map trim).filter (!·.isEmpty) = ps := by
  have htrim : ps.map trim = ps.map id := List.map_congr_left fun q hq => (hps q hq).trimmed
  rw [htrim, List.map_id, List.filter_eq_self]
  intro q hq
  simpa using (hps q hq).ne_nil

theorem parts_joined (hd : isDelimiter d = true) {p : Text} {ps : List Text}
    (hp : IsPart isDelimiter p) (hps : ∀ q ∈ ps, IsPart isDelimiter q) :
    parts isDelimiter (p ++ ps.flatMap fun q => d :: q) = p :: ps := by
  rw [parts, toList_cut_joined hd hp.not_delimiter fun q hq => (hps q hq).not_delimiter]
  apply trimmed_of_parts
  intro q hq
  rcases List.mem_cons.mp hq with hq | hq
  · exact hq ▸ hp
  · exact hps q hq

theorem parts_behind (hd : isDelimiter d = true) {ps : List Text}
    (hps : ∀ q ∈ ps, IsPart isDelimiter q) :
    parts isDelimiter (ps.flatMap fun q => d :: q) = ps := by
  have hcut := toList_cut_joined hd (p := []) (by simp) fun q hq => (hps q hq).not_delimiter
  rw [List.nil_append] at hcut
  calc parts isDelimiter (ps.flatMap fun q => d :: q)
      = (([] :: ps).map trim).filter (!·.isEmpty) := by rw [parts, hcut]
    _ = (ps.map trim).filter (!·.isEmpty) := rfl
    _ = ps := trimmed_of_parts hps

theorem trim_joined {p : Text} {ps : List Text} (hp : IsPart isDelimiter p)
    (hps : ∀ q ∈ ps, IsPart isDelimiter q) :
    trim (p ++ ps.flatMap fun q => d :: q) = p ++ ps.flatMap fun q => d :: q := by
  have hlast : ∀ {p : Text} {ps : List Text}, IsPart isDelimiter p →
      (∀ q ∈ ps, IsPart isDelimiter q) →
      ∀ c ∈ (p ++ ps.flatMap fun q => d :: q).getLast?, isBlank c = false := by
    intro p ps hp hps
    induction ps generalizing p with
    | nil =>
      rw [List.flatMap_nil, List.append_nil, ← hp.trimmed]
      exact fun c hc => getLast?_trimBy hc
    | cons q ps ih =>
      have hq := hps q List.mem_cons_self
      have hne : q ++ ps.flatMap (fun q => d :: q) ≠ [] :=
        List.append_ne_nil_of_left_ne_nil hq.ne_nil _
      rw [List.flatMap_cons, List.cons_append, List.append_cons,
        List.getLast?_append_of_ne_nil _ hne]
      exact ih hq fun r hr => hps r (List.mem_cons_of_mem _ hr)
  apply trimBy_eq_self _ (hlast hp hps)
  intro c hc
  rw [List.head?_append_of_ne_nil _ hp.ne_nil, ← hp.trimmed] at hc
  exact head?_trimBy hc

end GraphBlock.Text
