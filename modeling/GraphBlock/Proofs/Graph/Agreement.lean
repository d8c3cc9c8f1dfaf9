import GraphBlock.Graph.Basic
import GraphBlock.Proofs.Graph.Content
import GraphBlock.Proofs.Setting.Directives
import GraphBlock.Source

/-!
When graphs agree. Overrides with numbers at the same places make graphs that agree, so a block may
be followed through its overrides alone.
-/

namespace GraphBlock.Graph

open Overrides

/-- Graphs that show the same and are cached as the same, numbers compared by their places. -/
structure Agrees (g h : Graph) : Prop where
  equations : g.equations = h.equations
  settings : g.settings.Same h.settings
  hint : g.hint = h.hint
  hash : g.hash = h.hash

theorem build_eq_ok_iff {equations : List Equation} {o : Overrides} {hint : Option Hint}
    {g : Graph} :
    build equations o hint = .ok g ↔ g.source = equations ∧ g.written = o ∧ g.hint = hint := by
  rw [build]
  constructor
  · intro h
    split at h
    · cases h
      exact ⟨rfl, rfl, rfl⟩
    · cases h
  · intro h
    obtain ⟨hsource, hwritten, hhint⟩ := h
    subst hsource hwritten hhint
    split
    · rfl
    · next e he =>
      rw [g.valid] at he
      cases he

theorem exists_build (equations : List Equation) {o : Overrides} (hint : Option Hint)
    (h : (Settings.ofOverrides o.adjusted).validate = .ok ()) :
    ∃ g, build equations o hint = .ok g :=
  ⟨⟨equations, o, hint, h⟩, build_eq_ok_iff.mpr ⟨rfl, rfl, rfl⟩⟩

theorem valid_of_build {equations : List Equation} {o : Overrides} {hint : Option Hint} {g : Graph}
    (h : build equations o hint = .ok g) : (Settings.ofOverrides o.adjusted).validate = .ok () := by
  obtain ⟨-, hwritten, -⟩ := build_eq_ok_iff.mp h
  rw [← hwritten]
  exact g.valid

theorem build_agrees {equations : List Equation} {o p : Overrides} {hint : Option Hint} {h : Graph}
    (hop : o.Same p) (ho : o.Exact) (hp : p.Exact) (hbuild : build equations p hint = .ok h) :
    ∃ k, build equations o hint = .ok k ∧ k.Agrees h := by
  have hadjusted := hop.adjusted ho hp
  have hsettings := Settings.same_ofOverrides hadjusted
  obtain ⟨k, hk⟩ := exists_build equations hint
    (hsettings.validate_eq_ok_iff.mpr (valid_of_build hbuild))
  obtain ⟨hsource, hwritten, hhint⟩ := build_eq_ok_iff.mp hbuild
  obtain ⟨ksource, kwritten, khint⟩ := build_eq_ok_iff.mp hk
  have hsame : k.settings.Same h.settings := by
    rw [Graph.settings, Graph.settings, hwritten, kwritten]
    exact hsettings
  refine ⟨k, hk, ?_, hsame, khint.trans hhint.symm, ?_⟩
  · rw [Graph.equations, Graph.equations, ksource, hsource, hsame.defaultColor]
  · exact hash_eq (ksource.trans hsource.symm) (by rw [hwritten, kwritten]; exact hadjusted)

theorem build_refused {equations : List Equation} {o p : Overrides} {hint : Option Hint}
    {e : GraphError} (hop : o.Same p) (ho : o.Exact) (hp : p.Exact)
    (hbuild : build equations p hint = .error e) : ∃ e', build equations o hint = .error e' := by
  cases hresult : build equations o hint with
  | error e' => exact ⟨e', rfl⟩
  | ok k =>
    have hsettings := Settings.same_ofOverrides (hop.adjusted ho hp)
    obtain ⟨k', hk'⟩ := exists_build equations hint
      (hsettings.validate_eq_ok_iff.mp (valid_of_build hresult))
    rw [hk'] at hbuild
    cases hbuild

/-- What a block is read as before the rules are checked. -/
structure Reads (advise : Text → Option Hint) (source : Text) (equations : List Equation)
    (hint : Option Hint) (o : Overrides) : Prop where
  single : Source.breakDelimiter? (Source.split source).2 = none
  lines : readLines advise (Text.lines (Source.split source).2) = .ok (equations, hint)
  settings : Overrides.parse (some (Source.split source).1) = .ok o

theorem lines_cons_break (t : Text) : Text.lines ('\n' :: t) = Text.lines t := by
  have hbreak : Text.isLineBreak '\n' = true := rfl
  have hnil : Text.trim [] = [] := rfl
  simp [Text.lines, Text.parts, Pieces.cut, hbreak, Pieces.toList, hnil]

theorem breakDelimiter?_cons_break {t : Text} (h : Source.breakDelimiter? t = none) :
    Source.breakDelimiter? ('\n' :: t) = none := by
  rw [Source.breakDelimiter?.eq_2 '\n' t (by intro _ hc; cases hc), h]
  rfl

variable {advise : Text → Option Hint} {source : Text} {equations : List Equation}
  {hint : Option Hint} {o : Overrides}

/-- A block that is read as a graph; a block without delimiter is read as if one stood in front. -/
theorem reads_of_parse {g : Graph} (h : parse advise source = .ok g) :
    Reads advise source g.source g.hint g.written := by
  obtain ⟨⟨settings, text⟩, hsegments, h⟩ := bind_eq_ok_iff.mp h
  obtain ⟨⟨equations, hint⟩, hlines, h⟩ := bind_eq_ok_iff.mp h
  obtain ⟨o, hsettings, h⟩ := bind_eq_ok_iff.mp h
  obtain ⟨hsource, hwritten, hhint⟩ := build_eq_ok_iff.mp h
  rw [hsource, hwritten, hhint]
  rw [Source.segments] at hsegments
  cases hbreak : Source.breakDelimiter? source with
  | none =>
    simp only [hbreak] at hsegments
    cases hsegments
    have hsplit : Source.split source = ([], '\n' :: source) := by rw [Source.split, hbreak]; rfl
    cases hsettings
    exact ⟨by rw [hsplit]; exact breakDelimiter?_cons_break hbreak,
      by rw [hsplit, lines_cons_break]; exact hlines, by rw [hsplit]; rfl⟩
  | some cut =>
    obtain ⟨a, b⟩ := cut
    simp only [hbreak] at hsegments
    have hsplit : Source.split source = (a, b) := by rw [Source.split, hbreak]; rfl
    split at hsegments
    · cases hsegments
    · next hsingle =>
      cases hsegments
      exact ⟨by rw [hsplit]; simpa using hsingle, by rw [hsplit]; exact hlines,
        by rw [hsplit]; exact hsettings⟩

theorem Reads.parse_eq (h : Reads advise source equations hint o) :
    parse advise source = build equations o hint := by
  obtain ⟨hsingle, hlines, hsettings⟩ := h
  rw [parse, Source.segments]
  cases hbreak : Source.breakDelimiter? source with
  | none =>
    have hsplit : Source.split source = ([], '\n' :: source) := by rw [Source.split, hbreak]; rfl
    rw [hsplit] at hsettings
    rw [hsplit, lines_cons_break] at hlines
    cases hsettings
    simp only [bind, Except.bind, hlines, Overrides.parse]
  | some cut =>
    obtain ⟨a, b⟩ := cut
    have hsplit : Source.split source = (a, b) := by rw [Source.split, hbreak]; rfl
    rw [hsplit] at hsingle hlines hsettings
    simp only [hsingle, Option.isSome_none, Bool.false_eq_true, if_false, bind, Except.bind, hlines,
      hsettings]

theorem exact_of_parse {segment : Text} (h : Overrides.parse (some segment) = .ok o) : o.Exact := by
  intro e x hx
  obtain ⟨d, -, hreads⟩ := exists_of_forall₂ (parse_eq_ok_iff.mp h) hx
  obtain ⟨y, -, hy⟩ := map_eq_ok_iff.mp hreads.read
  cases hy
  exact trivial

end GraphBlock.Graph
