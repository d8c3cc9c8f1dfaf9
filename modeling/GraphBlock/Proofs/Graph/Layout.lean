import GraphBlock.Graph.Basic
import GraphBlock.Proofs.Accepted
import GraphBlock.Proofs.Source.Layout

/-!
Layout never matters. What a block is read as, or why it is refused, is decided by its directives
and by the segments of its lines.
-/

namespace GraphBlock

open Overrides

namespace EquationLine

variable {advise : Text → Option Hint}

def ofSegments (advise : Text → Option Hint) : List Text → Except GraphError EquationLine
  | [] => .error (.noExpression [])
  | expression :: tags => tags.foldlM (add advise) ⟨.ofExpression expression, none⟩

theorem parse_eq_ofSegments {line : Text} (h : segments line ≠ []) :
    parse advise line = ofSegments advise (segments line) := by
  rw [parse]
  cases hsegments : segments line with
  | nil => exact absurd hsegments h
  | cons expression tags => rfl

theorem mapM_parse_eq {ls : List (List Text)} {lines : List Text} (hls : ∀ l ∈ ls, l ≠ [])
    (h : List.Forall₂ (fun l line => segments line = l) ls lines) :
    lines.mapM (parse advise) = ls.mapM (ofSegments advise) := by
  induction h with
  | nil => rfl
  | @cons l line ls lines hl _ ih =>
    have hne : segments line ≠ [] := by
      rw [hl]
      exact hls l List.mem_cons_self
    rw [List.mapM_cons, List.mapM_cons, parse_eq_ofSegments hne, hl,
      ih fun m hm => hls m (List.mem_cons_of_mem _ hm)]

end EquationLine

namespace Graph

/-- What directives and the segments of lines are read as, without a text in which they stand. -/
def ofItems (advise : Text → Option Hint) (ds : List Directive) (ls : List (List Text)) :
    Except GraphError Graph := do
  let read ← ls.mapM (EquationLine.ofSegments advise)
  let written ← ofDirectives (ds.filter (· ≠ .void))
  build (read.map (·.equation)) written (read.filterMap (·.hint)).getLast?

variable {advise : Text → Option Hint} {ds : List Directive} {ls : List (List Text)}
  {source : Text}

theorem parse_layout (hds : ∀ d ∈ ds, d.WellFormed)
    (hls : ∀ l ∈ ls, l ≠ [] ∧ ∀ t ∈ l, IsSegment t) (h : Source.Layout ds ls source) :
    parse advise source = ofItems advise ds ls := by
  obtain ⟨settings, equations, hsegments, hdirectives, hlines⟩ :=
    Source.segments_of_layout hds hls h
  rw [parse, hsegments, ofItems]
  simp only [bind, Except.bind, readLines, EquationLine.mapM_parse_eq (fun l hl => (hls l hl).1)
    hlines, hdirectives]
  cases ls.mapM (EquationLine.ofSegments advise) <;> rfl

/-- Two layouts of the same directives and lines have the same outcome. -/
theorem parse_eq_of_layout (advise : Text → Option Hint) (ds : List Directive)
    (ls : List (List Text))
    (hds : ∀ d ∈ ds, d.WellFormed) (hls : ∀ l ∈ ls, l ≠ [] ∧ ∀ t ∈ l, IsSegment t) (s t : Text)
    (hs : Source.Layout ds ls s) (ht : Source.Layout ds ls t) : parse advise s = parse advise t :=
  (parse_layout hds hls hs).trans (parse_layout hds hls ht).symm

theorem parse_eq_of_layout_padded :
    parse Hint.bare (" left \x0b=\u00855;;\r grid\n" ++ Source.delimiter ++
        "\n\r\n| y=x |  x>0 ||\u2028 y=2") =
      parse Hint.bare ("left=5\ngrid\n" ++ Source.delimiter ++ "\ny=x|x>0\ny=2") := by
  have hspaced : Text.LaidOut isDelimiter isPadding Directive.Stands
      [⟨"left", some "5"⟩, ⟨"grid", none⟩] " left \x0b=\u00855;;\r grid\n" :=
    .closed (p := " left \x0b=\u00855") (.item (.assigned
        ⟨" ", " \x0b", by decide, by decide, rfl⟩ ⟨"\u0085", [], by decide, by decide, rfl⟩)) rfl <|
      .closed (p := []) (.padding (by decide)) rfl <|
      .closed (p := []) (.padding (by decide)) rfl <|
      .closed (p := " grid") (.item (.bare ⟨" ", [], by decide, by decide, rfl⟩)) rfl <|
      .last (p := []) (.padding (by decide))
  have hplain : Text.LaidOut isDelimiter isPadding Directive.Stands
      [⟨"left", some "5"⟩, ⟨"grid", none⟩] "left=5\ngrid\n" :=
    .closed (p := "left=5") (.item (.assigned (.self "left") (.self "5"))) rfl <|
      .closed (p := "grid") (.item (.bare (.self "grid"))) rfl <|
      .last (p := []) (.padding (by decide))
  have hline : EquationLine.Stands ["y=x", "x>0"] "| y=x |  x>0 ||" :=
    .closed (p := []) (.padding (by decide)) rfl <|
      .closed (p := " y=x ") (.item ⟨" ", " ", by decide, by decide, rfl⟩) rfl <|
      .closed (p := "  x>0 ") (.item ⟨"  ", " ", by decide, by decide, rfl⟩) rfl <|
      .closed (p := []) (.padding (by decide)) rfl <|
      .last (p := []) (.padding (by decide))
  have hspacedLines : Text.LaidOut Text.isLineBreak EquationLine.isPadding EquationLine.Stands
      [["y=x", "x>0"], ["y=2"]] "\n\r\n| y=x |  x>0 ||\u2028 y=2" :=
    .closed (p := []) (.padding (by decide)) rfl <|
      .closed (p := []) (.padding (by decide)) rfl <|
      .closed (p := []) (.padding (by decide)) rfl <|
      .closed (.item hline) rfl <|
      .last (p := " y=2") (.item (.last (.item ⟨" ", [], by decide, by decide, rfl⟩)))
  have hplainLines : Text.LaidOut Text.isLineBreak EquationLine.isPadding EquationLine.Stands
      [["y=x", "x>0"], ["y=2"]] "\ny=x|x>0\ny=2" :=
    .closed (p := []) (.padding (by decide)) rfl <|
      .closed (p := "y=x|x>0")
        (.item (.closed (p := "y=x") (.item (.self "y=x")) rfl
          (.last (p := "x>0") (.item (.self "x>0"))))) rfl <|
      .last (p := "y=2") (.item (.last (.item (.self "y=2"))))
  exact parse_eq_of_layout _ [⟨"left", some "5"⟩, ⟨"grid", none⟩] [["y=x", "x>0"], ["y=2"]]
    (by decide) (by decide) _ _ (.delimited hspaced (by decide) hspacedLines)
    (.delimited hplain (by decide) hplainLines)

end Graph

end GraphBlock
