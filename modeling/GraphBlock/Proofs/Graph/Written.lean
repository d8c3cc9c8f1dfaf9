import GraphBlock.Proofs.Graph.Agreement
import GraphBlock.Proofs.Source.Written

namespace GraphBlock

/-- A line of an equation, its tags in an order that keeps the restrictions in theirs. -/
def Equation.WrittenAs (e : Equation) (line : Text) : Prop :=
  ∃ tags, e.TaggedAs tags ∧ line = EquationLine.write e.expression tags

namespace Graph

open Overrides

variable {equations : List Equation} {lines : List Text}

def lastHint? (advise : Text → Option Hint) (equations : List Equation) : Option Hint :=
  ((equations.flatMap fun e => e.restrictions.getD []).filterMap advise).getLast?

theorem getLast?_hints (advise : Text → Option Hint) (equations : List Equation) :
    (equations.filterMap (·.hint? advise)).getLast? = lastHint? advise equations := by
  induction equations using List.reverseRecOn with
  | nil => rfl
  | append_singleton equations e ih =>
    have hone : ∀ o : Option Hint, o.toList.getLast? = o := by
      intro o
      cases o <;> rfl
    calc ((equations ++ [e]).filterMap (·.hint? advise)).getLast?
        = (e.hint? advise).or (lastHint? advise equations) := by
          rw [filterMap_concat, List.getLast?_append, hone, ih]
      _ = lastHint? advise (equations ++ [e]) := by
        rw [Equation.hint?, lastHint?, lastHint?, List.flatMap_append, List.filterMap_append,
          List.getLast?_append, List.flatMap_singleton]

theorem mapM_parse (advise : Text → Option Hint) (hequations : ∀ e ∈ equations, e.WellFormed)
    (hlines : List.Forall₂ Equation.WrittenAs equations lines) :
    lines.mapM (EquationLine.parse advise) =
      .ok (equations.map fun e => ⟨e, e.hint? advise⟩) := by
  induction hlines with
  | nil => rfl
  | cons hline hlines ih =>
    next e line equations lines =>
    obtain ⟨tags, htags, hwrite⟩ := hline
    have hparse := EquationLine.parse_written advise (hequations e List.mem_cons_self) htags
    rw [List.mapM_cons, hwrite, hparse, ih fun f hf => hequations f (List.mem_cons_of_mem _ hf)]
    rfl

theorem readLines_written (advise : Text → Option Hint) (hequations : ∀ e ∈ equations, e.WellFormed)
    (hlines : List.Forall₂ Equation.WrittenAs equations lines) :
    readLines advise lines = .ok (equations, lastHint? advise equations) := by
  have hmap : equations.map ((·.equation) ∘ fun e => EquationLine.mk e (e.hint? advise)) =
      equations := List.map_id equations
  rw [readLines, mapM_parse advise hequations hlines, ← getLast?_hints]
  simp only [bind, Except.bind, pure, Except.pure, List.map_map, List.filterMap_map, hmap]
  rfl

theorem exists_reads_write (advise : Text → Option Hint) {o : Overrides}
    (hequations : ∀ e ∈ equations, e.WellFormed)
    (hlines : List.Forall₂ Equation.WrittenAs equations lines) (ho : ∀ s ∈ o.entries, s.Typed) :
    ∃ p, Reads advise (Source.write o.entries lines) equations
      (lastHint? advise equations) p ∧ p.Same o := by
  have hwritten : ∀ line ∈ lines, Text.IsPart Text.isLineBreak line ∧
      ¬ Source.delimiter <:+: line := by
    intro line hline
    obtain ⟨e, he, tags, htags, hwrite⟩ := exists_of_forall₂ hlines hline
    have hwell := htags.wellFormed (hequations e he)
    rw [hwrite]
    exact ⟨EquationLine.isPart_write (hequations e he).expression hwell,
      EquationLine.not_infix_write (hequations e he).expression hwell⟩
  obtain ⟨p, hparse, hsame⟩ := Source.exists_parse_settings ho
  have hsplit := Source.split_write lines fun s hs => (ho s hs).spellable
  refine ⟨p, ⟨?_, ?_, ?_⟩, hsame⟩
  · rw [hsplit, Source.breakDelimiter?_eq_none_iff]
    exact Source.not_infix_joined (p := []) (by decide) (by decide) fun q hq => (hwritten q hq).2
  · rw [hsplit, Text.lines, Text.parts_behind rfl fun q hq => (hwritten q hq).1]
    exact readLines_written _ hequations hlines
  · rw [hsplit]
    exact hparse

/-- The written block is read as the graph of what it was written from, and is refused where that
graph is. -/
theorem parse_write (advise : Text → Option Hint) (equations : List Equation) (lines : List Text)
    (r : Overrides)
    (hequations : ∀ e ∈ equations, e.WellFormed)
    (hlines : List.Forall₂ Equation.WrittenAs equations lines) (hr : ∀ s ∈ r.entries, s.Typed) :
    (∀ g, build equations r (lastHint? advise equations) = .ok g →
      ∃ h, parse advise (Source.write r.entries lines) = .ok h ∧ h.source = equations ∧
        h.Agrees g) ∧
    (∀ e, build equations r (lastHint? advise equations) = .error e →
      ∃ e', parse advise (Source.write r.entries lines) = .error e') := by
  obtain ⟨p, hreads, hsame⟩ := exists_reads_write advise hequations hlines hr
  have hp : p.Exact := exact_of_parse hreads.settings
  have hrExact : r.Exact := by
    intro e x hx
    exact (hr _ hx).2
  rw [hreads.parse_eq]
  constructor
  · intro g hg
    obtain ⟨h, hbuild, hagrees⟩ := build_agrees hsame hp hrExact hg
    obtain ⟨hsource, -, -⟩ := build_eq_ok_iff.mp hbuild
    exact ⟨h, hbuild, hsource, hagrees⟩
  · intro e he
    exact build_refused hsame hp hrExact he

theorem parse_write_shuffled :
    ∃ g h, build
        [⟨"y=x^2", some ["x<1", "0<x"], some (.line .dashed), some (.named .red), some true,
          some "area"⟩]
        ⟨[.edge .left (.int (-20)), .flag .grid false], by decide⟩ none = .ok g ∧
      parse Hint.bare "left=-20\ngrid=false\n---\ny=x^2|hidden|x<1|RED|label:area|0<x|DASHED" =
        .ok h ∧
      h.source = g.source ∧ h.Agrees g := by
  obtain ⟨g, hg⟩ := exists_ok (x := build
    [⟨"y=x^2", some ["x<1", "0<x"], some (.line .dashed), some (.named .red), some true,
      some "area"⟩]
    ⟨[.edge .left (.int (-20)), .flag .grid false], by decide⟩ none) (by decide +kernel)
  have hequation : Equation.WellFormed ⟨"y=x^2", some ["x<1", "0<x"], some (.line .dashed),
      some (.named .red), some true, some "area"⟩ := by
    refine ⟨.of_run (by decide) (by decide), by decide, ?_, ?_, by decide, ?_⟩
    · intro rs hrs r hr
      cases hrs
      revert r
      simp only [List.mem_cons, List.not_mem_nil, or_false, forall_eq_or_imp, forall_eq]
      exact ⟨⟨.of_run (by decide) (by decide), by decide⟩,
        ⟨.of_run (by decide) (by decide), by decide⟩⟩
    · intro c hc
      cases hc
      exact trivial
    · intro t ht
      cases ht
      exact .inr (.of_run (by decide) (by decide))
  have hline : Equation.WrittenAs ⟨"y=x^2", some ["x<1", "0<x"], some (.line .dashed),
      some (.named .red), some true, some "area"⟩
      "y=x^2|hidden|x<1|RED|label:area|0<x|DASHED" :=
    ⟨[.hidden, .restriction "x<1", .color (.named .red), .label "area", .restriction "0<x",
      .style (.line .dashed)], ⟨by decide, by decide⟩, by decide⟩
  obtain ⟨h, hparse, hsource, hagrees⟩ := (parse_write Hint.bare _ _
    ⟨[.edge .left (.int (-20)), .flag .grid false], by decide⟩ (by simpa using hequation)
    (.cons hline .nil) (by simp [Setting.Typed, Number.Finite, Number.Exact])).1 g hg
  exact ⟨g, h, hg, hparse, hsource.trans (build_eq_ok_iff.mp hg).1.symm, hagrees⟩

end Graph

end GraphBlock
