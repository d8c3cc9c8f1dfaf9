import GraphBlock.Graph.Basic
import GraphBlock.Proofs.Equation.Grammar
import GraphBlock.Proofs.Setting.Reading
import GraphBlock.Proofs.Text.Layout

namespace GraphBlock

namespace Color

variable {t : Text} {x : Char} {color : Color}

theorem eq_or_isAlphanum_of_mem (h : parse? t = some color) (hcase : Text.upperChar x = [x])
    (hx : x ∈ t) : x = '#' ∨ x.isAlphanum = true := by
  rw [parse?] at h
  split at h
  · next hcode =>
    obtain ⟨body, hbody, halnum⟩ := Readable.spellable (c := .code t) hcode
    rw [hbody] at hx
    exact (List.mem_cons.mp hx).imp id (halnum x)
  · obtain ⟨m, hm, -⟩ := Option.map_eq_some_iff.mp h
    have hletters : ∀ y ∈ Vocabulary.name m, y.isAlphanum = true := by cases m <;> decide
    rw [Vocabulary.name_eq_of_named? hm] at hletters
    exact .inr (hletters x (Text.mem_upper_of_mem hcase hx))

theorem not_mem_of_parse? (h : parse? t = some color) (hcase : Text.upperChar x = [x])
    (hx : ¬ (x = '#' ∨ x.isAlphanum = true)) : x ∉ t :=
  fun hin => hx (eq_or_isAlphanum_of_mem h hcase hin)

theorem not_isDelimiter_of_parse? (h : parse? t = some color) :
    ∀ x ∈ t, Overrides.isDelimiter x = false := by
  intro x hx
  cases hdelimiter : Overrides.isDelimiter x with
  | false => rfl
  | true =>
    simp only [Overrides.isDelimiter, Bool.or_eq_true, beq_iff_eq] at hdelimiter
    rcases hdelimiter with (rfl | rfl) | rfl
    · exact absurd hx (not_mem_of_parse? h rfl (by decide))
    · exact absurd hx (not_mem_of_parse? h rfl (by decide))
    · exact absurd hx (not_mem_of_parse? h rfl (by decide))

theorem isSegment_of_parse? (h : parse? t = some color) : IsSegment t := by
  apply IsSegment.of_run
  · intro hnil
    rw [hnil, show parse? [] = none by decide] at h
    cases h
  · intro x hx
    refine ⟨Kind.ink_of_parse? h x hx, ?_, ?_⟩
    · rintro rfl
      exact not_mem_of_parse? h rfl (by decide) hx
    · rintro rfl
      exact not_mem_of_parse? h rfl (by decide) hx

end Color

namespace EquationLine

variable {advise : Text → Option Hint} {line c : Text} {color : Color} {l : EquationLine}

def painted (default : Option Color) (l : EquationLine) : EquationLine :=
  { l with equation := l.equation.painted default }

/-- A line with a color tag behind it, if it is read as an equation without a color. -/
def withColor (c line : Text) : Text :=
  match parse (fun _ => none) (Text.trim line) with
  | .ok l => if l.equation.color = none then line ++ '|' :: c else line
  | .error _ => line

theorem segments_trim (line : Text) : segments (Text.trim line) = segments line := by
  apply Text.parts_trim
  intro x hx
  rw [beq_eq_false_iff_ne]
  rintro rfl
  exact absurd hx (by decide)

theorem segments_concat (line : Text) (hc : IsSegment c) :
    segments (line ++ '|' :: c) = segments line ++ [c] := by
  have hbar : ∀ x ∈ c, (x == '|') = false := by
    intro x hx
    rw [beq_eq_false_iff_ne]
    rintro rfl
    exact hc.not_bar hx
  have hself : Text.parts (· == '|') c = [c] := by
    rw [Text.parts_piece hbar, hc.trimmed, if_neg hc.ne_nil]
  rw [segments, Text.parts_append _ _ rfl, hself, segments]

theorem parse_concat (hparse : parse advise line = .ok l) (hnone : l.equation.color = none)
    (hc : Color.parse? c = some color) :
    parse advise (line ++ '|' :: c) = .ok (l.painted (some color)) := by
  have hadd : add advise l c = .ok (l.painted (some color)) := by
    simp only [add, Tag.ofText_of_parse? hc, hnone, Option.isSome_none, Bool.false_eq_true,
      if_false, painted, Equation.painted, Option.none_or]
  obtain ⟨expression, tags, hline, -, -⟩ := parse_eq_ok_iff.mp hparse
  have hmore : segments (line ++ '|' :: c) = expression :: (tags ++ [c]) := by
    rw [segments_concat line (Color.isSegment_of_parse? hc), hline, List.cons_append]
  rw [parse_eq_of_segments hline] at hparse
  rw [parse_eq_of_segments hmore, List.foldlM_append, hparse]
  simp only [List.foldlM_cons, List.foldlM_nil, bind, Except.bind, hadd]
  rfl

theorem parse_congr_of_segments {a b : Text} (h : segments a = segments b)
    (hparse : parse advise a = .ok l) : parse advise b = .ok l := by
  obtain ⟨expression, tags, hline, -, -⟩ := parse_eq_ok_iff.mp hparse
  rwa [parse_eq_of_segments (h ▸ hline), ← parse_eq_of_segments hline]

theorem parse_withColor (hparse : parse advise (Text.trim line) = .ok l)
    (hc : Color.parse? c = some color) :
    parse advise (Text.trim (withColor c line)) = .ok (l.painted (some color)) := by
  apply parse_congr_of_segments (segments_trim (withColor c line)).symm
  have hline := parse_congr_of_segments (segments_trim line) hparse
  have hequation : (parse (fun _ => none) (Text.trim line)).map equation = .ok l.equation := by
    rw [parse_map_equation, hparse]
    rfl
  obtain ⟨m, hm, hequal⟩ := map_eq_ok_iff.mp hequation
  simp only [withColor, hm, hequal]
  split
  · next hnone => exact parse_concat hline hnone hc
  · next hsome =>
    obtain ⟨own, hown⟩ := Option.ne_none_iff_exists'.mp hsome
    rw [hline, painted, Equation.painted, hown, Option.some_or, ← hown]

def withColors (c t : Text) : Text := ((Pieces.cut Text.isLineBreak t).map (withColor c)).text

theorem withColor_of_blank (h : Text.trim line = []) : withColor c line = line := by
  have hnil : parse (fun _ => none) [] = .error (.noExpression []) := rfl
  rw [withColor, h, hnil]

theorem toList_cut_withColors (hc : ∀ x ∈ c, Text.isLineBreak x = false) (t : Text) :
    (Pieces.cut Text.isLineBreak (withColors c t)).toList =
      (Pieces.cut Text.isLineBreak t).toList.map (withColor c) := by
  have hline : ∀ p, (∀ x ∈ p, Text.isLineBreak x = false) →
      ∀ x ∈ withColor c p, Text.isLineBreak x = false := by
    intro p hp x hx
    rw [withColor] at hx
    split at hx
    · split at hx
      · rcases List.mem_append.mp hx with hx | hx
        · exact hp x hx
        · rcases List.mem_cons.mp hx with rfl | hx
          · decide
          · exact hc x hx
      · exact hp x hx
    · exact hp x hx
  have hproper := (Pieces.proper_cut Text.isLineBreak t).map hline
  rw [withColors, Pieces.cut_text hproper, Pieces.toList_map]

theorem mapM_parse_withColor {ps : List Text} {read : List EquationLine}
    (hc : Color.parse? c = some color)
    (h : ((ps.map Text.trim).filter (!·.isEmpty)).mapM (parse advise) = .ok read) :
    (((ps.map (withColor c)).map Text.trim).filter (!·.isEmpty)).mapM
      (parse advise) = .ok (read.map (painted (some color))) := by
  induction ps generalizing read with
  | nil =>
    cases h
    rfl
  | cons p ps ih =>
    simp only [List.map_cons] at h ⊢
    by_cases hp : Text.trim p = []
    · rw [List.filter_cons_of_neg (by simp [hp])] at h
      rw [withColor_of_blank hp, List.filter_cons_of_neg (by simp [hp])]
      exact ih h
    · rw [List.filter_cons_of_pos (by simpa using hp), List.mapM_cons] at h
      obtain ⟨l, hl, h⟩ := bind_eq_ok_iff.mp h
      obtain ⟨ls, hls, h⟩ := bind_eq_ok_iff.mp h
      cases h
      have hread := parse_withColor hl hc
      have hne : Text.trim (withColor c p) ≠ [] := by
        intro hnil
        rw [hnil] at hread
        cases hread
      rw [List.filter_cons_of_pos (by simpa using hne), List.mapM_cons, hread, ih hls]
      rfl

theorem readLines_withColors {t : Text} {equations : List Equation} {hint : Option Hint}
    (hc : Color.parse? c = some color)
    (h : Graph.readLines advise (Text.lines t) = .ok (equations, hint)) :
    Graph.readLines advise (Text.lines (withColors c t)) =
      .ok (equations.map (Equation.painted (some color)), hint) := by
  obtain ⟨read, hread, h⟩ := bind_eq_ok_iff.mp h
  cases h
  have hlines := mapM_parse_withColor hc hread
  rw [← toList_cut_withColors (Color.isSegment_of_parse? hc).not_break] at hlines
  rw [Graph.readLines, Text.lines, Text.parts, hlines]
  simp only [bind, Except.bind, pure, Except.pure, List.map_map, List.filterMap_map]
  rfl

theorem not_infix_withColors {t : Text} (hc : IsSegment c) (ht : ¬ Source.delimiter <:+: t) :
    ¬ Source.delimiter <:+: withColors c t := by
  have hproper := Pieces.proper_cut Text.isLineBreak (withColors c t)
  rw [← Pieces.text_cut Text.isLineBreak (withColors c t)]
  apply Source.not_infix_text (by decide) hproper
  rw [toList_cut_withColors hc.not_break]
  intro q hq
  obtain ⟨p, hp, rfl⟩ := List.mem_map.mp hq
  have hpiece : ¬ Source.delimiter <:+: p := by
    intro hin
    apply ht
    rw [← Pieces.text_cut Text.isLineBreak t]
    exact hin.trans (Pieces.infix_text hp)
  rw [withColor]
  split
  · split
    · rw [Source.delimiter_infix_cons_iff (by decide), not_or]
      exact ⟨hpiece, hc.not_infix⟩
    · exact hpiece
  · exact hpiece

end EquationLine

end GraphBlock
