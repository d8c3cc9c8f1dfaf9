import GraphBlock.Proofs.Equation.Grammar
import GraphBlock.Proofs.Graph.Fault
import GraphBlock.Proofs.Graph.Written

/-!
Hints are a side channel. However restrictions earn them, a block is read, or refused, as if there
were none; and of all the restrictions of a graph the last one that holds a backslash decides.
-/

namespace GraphBlock

namespace Hint

variable {ε : Type} {convert : Text → Except ε Text} {t : Text}

theorem ofRestriction?_eq_none_iff : ofRestriction? convert t = none ↔ '\\' ∉ t := by
  rw [ofRestriction?]
  split <;> simp [*]

theorem ofRestriction?_of_mem (h : '\\' ∈ t) :
    ofRestriction? convert t = some ⟨t, (convert t).toOption⟩ := if_pos h

end Hint

namespace EquationLine

variable {advise : Text → Option Hint} {line : Text} {l : EquationLine}

theorem hint_of_parse (h : parse advise line = .ok l) : l.hint = l.equation.hint? advise := by
  obtain ⟨expression, tags, -, -, rfl⟩ := parse_eq_ok_iff.mp h
  rw [Equation.hint?, ofTags, getD_restrictions?, hint?]

/-- The restrictions of a line are the tags that are nothing else, in order. -/
theorem restrictions_of_parse (h : parse advise line = .ok l) :
    l.equation.restrictions.getD [] =
      (segments line).tail.filter (Tag.Class.restriction.Holds ·) := by
  obtain ⟨expression, tags, hline, -, rfl⟩ := parse_eq_ok_iff.mp h
  rw [hline, List.tail_cons, ← filterMap_restriction?, ofTags, getD_restrictions?]

end EquationLine

namespace Graph

variable {advise advise' : Text → Option Hint} {lines : List Text} {equations : List Equation}
  {hint : Option Hint} {source : Text} {g : Graph}

def restrictions (g : Graph) : List Text := g.equations.flatMap fun e => e.restrictions.getD []

theorem readLines_map_fst (lines : List Text) :
    (readLines advise lines).map Prod.fst = (readLines advise' lines).map Prod.fst :=
  bind_map_congr (mapM_map_congr EquationLine.parse_map_equation lines) fun _ _ h =>
    congrArg Except.ok h

theorem restrictions_of_readLines (h : readLines advise lines = .ok (equations, hint)) :
    (equations.flatMap fun e => e.restrictions.getD []) =
      lines.flatMap fun line =>
        (EquationLine.segments line).tail.filter (Tag.Class.restriction.Holds ·) := by
  obtain ⟨read, hread, heq⟩ := bind_eq_ok_iff.mp h
  cases heq
  have hmap : read.map (fun l => l.equation.restrictions.getD []) = lines.map fun line =>
      (EquationLine.segments line).tail.filter (Tag.Class.restriction.Holds ·) := by
    rw [← List.forall₂_eq_eq_eq, List.forall₂_map_left_iff, List.forall₂_map_right_iff]
    exact (forall₂_of_mapM hread).flip.imp fun l line => EquationLine.restrictions_of_parse
  rw [List.flatMap_map, List.flatMap_def, hmap, List.flatMap_def]

theorem hint_of_readLines (h : readLines advise lines = .ok (equations, hint)) :
    hint = lastHint? advise equations := by
  obtain ⟨read, hread, heq⟩ := bind_eq_ok_iff.mp h
  cases heq
  have hhints : read.filterMap (·.hint) = (read.map (·.equation)).filterMap (·.hint? advise) := by
    rw [List.filterMap_map]
    apply List.filterMap_congr
    intro l hl
    obtain ⟨line, -, hparse⟩ := exists_of_forall₂ (forall₂_of_mapM hread) hl
    exact EquationLine.hint_of_parse hparse
  rw [hhints, getLast?_hints]

theorem build_map_shown (o : Overrides) (hint hint' : Option Hint) :
    (build equations o hint).map (fun g => (g.equations, g.settings, g.hash)) =
      (build equations o hint').map fun g => (g.equations, g.settings, g.hash) := by
  rw [build, build]
  split <;> rfl

theorem parse_map_shown (source : Text) :
    (parse advise source).map (fun g => (g.equations, g.settings, g.hash)) =
      (parse advise' source).map fun g => (g.equations, g.settings, g.hash) := by
  refine bind_map_congr (p := id) (q := id) rfl ?_
  rintro ⟨settings, text⟩ _ rfl
  refine bind_map_congr (readLines_map_fst _) ?_
  rintro ⟨equations, hint⟩ ⟨_, hint'⟩ rfl
  refine bind_map_congr (p := id) (q := id) rfl ?_
  rintro o _ rfl
  exact build_map_shown o hint hint'

theorem restrictions_eq (g : Graph) :
    g.restrictions = g.source.flatMap fun e => e.restrictions.getD [] := by
  rw [restrictions, Graph.equations, List.flatMap_map]
  rfl

theorem exists_readLines (h : parse advise source = .ok g) :
    ∃ settings text, Source.segments source = .ok (settings, text) ∧
      readLines advise (Text.lines text) = .ok (g.source, g.hint) := by
  obtain ⟨⟨settings, text⟩, hsegments, h⟩ := bind_eq_ok_iff.mp h
  obtain ⟨⟨equations, hint⟩, hlines, h⟩ := bind_eq_ok_iff.mp h
  obtain ⟨o, -, h⟩ := bind_eq_ok_iff.mp h
  obtain ⟨hsource, -, hhint⟩ := build_eq_ok_iff.mp h
  rw [hsource, hhint]
  exact ⟨settings, text, hsegments, hlines⟩

/-- Hints are a side channel, and the last one wins. Whatever becomes of the LaTeX in restrictions,
a block is refused for the same reason, or shows the same equations and settings under the same
hash, as if no restriction ever earned a hint. Of a graph there is no hint exactly when no
restriction holds a backslash, and otherwise it is that of the last one which does; and the
restrictions are, line by line, the tags that are nothing else. -/
theorem parse_hint_last {ε : Type} (convert : Text → Except ε Text) (source : Text) :
    (parse (Hint.ofRestriction? convert) source).map
        (fun g => (g.equations, g.settings, g.hash)) =
      (parse (fun _ => none) source).map (fun g => (g.equations, g.settings, g.hash)) ∧
    (∀ g, parse (Hint.ofRestriction? convert) source = .ok g →
      (g.hint = none ↔ ∀ t ∈ g.restrictions, '\\' ∉ t) ∧
      (∀ before t after, g.restrictions = before ++ t :: after → '\\' ∈ t →
        (∀ u ∈ after, '\\' ∉ u) → g.hint = some ⟨t, (convert t).toOption⟩) ∧
      ∃ settings text, Source.segments source = .ok (settings, text) ∧
        g.restrictions = (Text.lines text).flatMap fun line =>
          (EquationLine.segments line).tail.filter (Tag.Class.restriction.Holds ·)) := by
  refine ⟨parse_map_shown source, ?_⟩
  intro g hparse
  obtain ⟨settings, text, hsegments, hlines⟩ := exists_readLines hparse
  have hhint : g.hint = (g.restrictions.filterMap (Hint.ofRestriction? convert)).getLast? := by
    rw [hint_of_readLines hlines, lastHint?, restrictions_eq]
  rw [hhint]
  refine ⟨?_, ?_, settings, text, hsegments, ?_⟩
  · simp only [List.getLast?_eq_none_iff, List.filterMap_eq_nil_iff,
      Hint.ofRestriction?_eq_none_iff]
  · intro before t after hrestrictions ht hafter
    have hnil : after.filterMap (Hint.ofRestriction? convert) = [] :=
      List.filterMap_eq_nil_iff.mpr fun u hu => Hint.ofRestriction?_eq_none_iff.mpr (hafter u hu)
    rw [hrestrictions, List.filterMap_append,
      List.filterMap_cons_some (Hint.ofRestriction?_of_mem ht), hnil, List.getLast?_concat]
  · rw [restrictions_eq, restrictions_of_readLines hlines]

/-- The last backslash in a restriction belongs to one that cannot be converted; those in a label
and in an expression are behind it, and so is a restriction without one. -/
theorem parse_hint_last_unconverted :
    ∃ g, parse (Hint.ofRestriction? fun t => if t = "a\\".toList then .ok "a" else .error ())
        "y=x|a\\|b\\ |label:\\c|RED\n\ny=\\d|x<1" = .ok g ∧
      g.restrictions = ["a\\".toList, "b\\".toList, "x<1".toList] ∧
      g.hint = some ⟨"b\\", none⟩ := by
  obtain ⟨-, hhint⟩ := parse_hint_last
    (fun t => if t = "a\\".toList then Except.ok "a".toList else .error ())
    "y=x|a\\|b\\ |label:\\c|RED\n\ny=\\d|x<1"
  have hread : (parse
      (Hint.ofRestriction? fun t => if t = "a\\".toList then .ok "a".toList else .error ())
      "y=x|a\\|b\\ |label:\\c|RED\n\ny=\\d|x<1").map restrictions =
        .ok ["a\\".toList, "b\\".toList, "x<1".toList] := by decide +kernel
  obtain ⟨g, hg, hrestrictions⟩ := map_eq_ok_iff.mp hread
  obtain ⟨-, hlast, -⟩ := hhint g hg
  exact ⟨g, hg, hrestrictions,
    hlast ["a\\".toList] "b\\" ["x<1".toList] hrestrictions (by decide) (by decide)⟩

end Graph

end GraphBlock
