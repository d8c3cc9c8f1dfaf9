import GraphBlock.Proofs.Equation.Grammar
import GraphBlock.Proofs.Graph.Agreement
import GraphBlock.Proofs.Graph.Fault
import GraphBlock.Proofs.Setting.Grammar
import GraphBlock.Proofs.Source.Segments

/-!
Which error a block is refused with. Every check is stated by itself, so a block may fail several of
them; the first in the order of the stages decides what the author is told.
-/

namespace GraphBlock

namespace EquationLine

inductive Offends (line : Text) : GraphError → Prop
  | empty (h : segments line = []) : Offends line (.noExpression line)
  | tag {expression t : Text} {before after : List Text} {e : GraphError}
      (h : segments line = expression :: (before ++ t :: after)) (hbefore : Admissible before)
      (ht : Breaks before t e) : Offends line e

theorem parse_eq_error_iff_offends {advise : Text → Option Hint} {line : Text} {e : GraphError} :
    parse advise line = .error e ↔ Offends line e := by
  rw [parse_eq_error_iff]
  constructor
  · rintro (⟨hnil, he⟩ | ⟨expression, before, t, after, hline, hbefore, ht⟩)
    · rw [he]
      exact .empty hnil
    · exact .tag hline hbefore ht
  · intro h
    cases h with
    | empty hnil => exact .inl ⟨hnil, rfl⟩
    | tag hline hbefore ht => exact .inr ⟨_, _, _, _, hline, hbefore, ht⟩

end EquationLine

namespace Settings

inductive Rule
  | size
  | horizontal
  | vertical
  deriving DecidableEq, Repr

def Rule.rank : Rule → Nat
  | size => 0
  | horizontal => 1
  | vertical => 2

inductive Breaks (s : Settings) : Rule → GraphError → Prop
  | size (h : (Number.int maxSize).lt s.width = true ∨ (Number.int maxSize).lt s.height = true) :
      Breaks s .size (.tooLarge s.width s.height)
  | horizontal (h : s.right.le s.left = true) :
      Breaks s .horizontal (.rightNotAboveLeft s.right s.left)
  | vertical (h : s.top.le s.bottom = true) :
      Breaks s .vertical (.topNotAboveBottom s.top s.bottom)

variable {s : Settings} {e e' : GraphError}

theorem Breaks.unique {rule : Rule} (h : s.Breaks rule e) (h' : s.Breaks rule e') : e = e' := by
  cases h <;> cases h' <;> rfl

theorem not_breaks_of_validate (h : s.validate = .ok ()) {rule : Rule} : ¬ s.Breaks rule e := by
  rw [validate] at h
  intro hbreaks
  split at h
  · cases h
  · next hsize =>
    split at h
    · cases h
    · next hhorizontal =>
      split at h
      · cases h
      · next hvertical =>
        cases hbreaks with
        | size hlarge => exact hsize (Bool.or_eq_true _ _ ▸ hlarge)
        | horizontal hle => exact hhorizontal hle
        | vertical hle => exact hvertical hle

theorem exists_breaks_of_validate (h : s.validate = .error e) :
    ∃ rule, s.Breaks rule e ∧ ∀ earlier : Rule, earlier.rank < rule.rank →
      ∀ e', ¬ s.Breaks earlier e' := by
  rw [validate] at h
  split at h
  · next hsize =>
    cases h
    refine ⟨.size, .size (Bool.or_eq_true _ _ ▸ hsize), ?_⟩
    intro earlier hrank e' hbreaks
    cases hbreaks <;> exact absurd hrank (by decide)
  · next hsize =>
    rw [Bool.or_eq_true] at hsize
    split at h
    · next hhorizontal =>
      cases h
      refine ⟨.horizontal, .horizontal hhorizontal, ?_⟩
      intro earlier hrank e' hbreaks
      cases hbreaks with
      | size hlarge => exact hsize hlarge
      | _ => exact absurd hrank (by decide)
    · next hhorizontal =>
      split at h
      · next hvertical =>
        cases h
        refine ⟨.vertical, .vertical hvertical, ?_⟩
        intro earlier hrank e' hbreaks
        cases hbreaks with
        | size hlarge => exact hsize hlarge
        | horizontal hle => exact hhorizontal hle
        | vertical _ => exact absurd hrank (by decide)
      · cases h

end Settings

inductive Stage
  | delimiter
  | line
  | directive
  | rule (rule : Settings.Rule)
  deriving DecidableEq, Repr

namespace Stage

def rank : Stage → Nat
  | delimiter => 0
  | line => 1
  | directive => 2
  | rule r => 3 + r.rank

theorem rank_injective {stage stage' : Stage} (h : stage.rank = stage'.rank) : stage = stage' := by
  rcases stage with _ | _ | _ | ⟨⟨⟩⟩ <;> rcases stage' with _ | _ | _ | ⟨⟨⟩⟩ <;>
    first | rfl | cases h

/-- The full settings of a block, however its equations are read. -/
inductive Resolves (source : Text) : Settings → Prop
  | intro {settings : Option Text} {equations : Text} {o : Overrides}
      (hsource : Source.segments source = .ok (settings, equations))
      (ho : Overrides.parse settings = .ok o) : Resolves source (.ofOverrides o.adjusted)

/-- What a block fails one of the checks with, whether or not it passes the others. -/
inductive Fails (source : Text) : Stage → GraphError → Prop
  | delimiter {a b c : Text}
      (h : source = a ++ Source.delimiter ++ b ++ Source.delimiter ++ c) :
      Fails source .delimiter .tooManySegments
  | line {settings : Option Text} {equations line : Text} {before after : List Text}
      {e : GraphError} (hsource : Source.segments source = .ok (settings, equations))
      (hlines : Text.lines equations = before ++ line :: after)
      (hbefore : ∀ l ∈ before, ∀ e', ¬ EquationLine.Offends l e')
      (hline : EquationLine.Offends line e) : Fails source .line e
  | directive {settings equations : Text} {before after : List Overrides.Directive}
      {d : Overrides.Directive} {e : GraphError}
      (hsource : Source.segments source = .ok (some settings, equations))
      (hdirectives : Overrides.directives settings = before ++ d :: after) (hd : d.Offends before e)
      (hbefore : ∀ start u more, before = start ++ u :: more → ∀ e', ¬ u.Offends start e') :
      Fails source .directive e
  | rule {s : Settings} {rule : Settings.Rule} {e : GraphError} (hs : Resolves source s)
      (h : s.Breaks rule e) : Fails source (.rule rule) e

/-- A check is the first one that a block fails. -/
def FailsFirst (source : Text) (stage : Stage) (e : GraphError) : Prop :=
  Fails source stage e ∧ ∀ earlier : Stage, earlier.rank < stage.rank →
    ∀ e', ¬ Fails source earlier e'

variable {source equations : Text} {settings : Option Text} {o : Overrides} {s : Settings}
  {e e' : GraphError}

theorem fails_delimiter_iff : Fails source .delimiter e ↔ Source.segments source = .error e := by
  rw [Source.segments_eq_error_iff]
  constructor
  · intro h
    cases h with
    | delimiter h => exact ⟨rfl, _, _, _, h⟩
  · rintro ⟨rfl, a, b, c, h⟩
    exact .delimiter h

theorem fails_line_iff (advise : Text → Option Hint)
    (hsource : Source.segments source = .ok (settings, equations)) :
    Fails source .line e ↔ Graph.readLines advise (Text.lines equations) = .error e := by
  have hclean (l : Text) : (∃ r, EquationLine.parse advise l = .ok r) ↔
      ∀ e', ¬ EquationLine.Offends l e' := by
    simp only [exists_ok_iff, ne_eq, EquationLine.parse_eq_error_iff_offends]
  have hlines : Graph.readLines advise (Text.lines equations) = .error e ↔
      (Text.lines equations).mapM (EquationLine.parse advise) = .error e := by
    rw [Graph.readLines, bind_eq_error_iff]
    simp [pure, Except.pure]
  rw [hlines, mapM_eq_error_iff]
  simp only [hclean, EquationLine.parse_eq_error_iff_offends]
  constructor
  · intro h
    cases h with
    | line hsource' hlines hbefore hline =>
      rw [hsource] at hsource'
      cases hsource'
      exact ⟨_, _, _, hlines, hbefore, hline⟩
  · rintro ⟨before, line, after, hlines, hbefore, hline⟩
    exact .line hsource hlines hbefore hline

theorem fails_directive_iff (hsource : Source.segments source = .ok (settings, equations)) :
    Fails source .directive e ↔ Overrides.parse settings = .error e := by
  cases settings with
  | none =>
    constructor
    · intro h
      cases h with
      | directive hsource' =>
        rw [hsource] at hsource'
        cases hsource'
    · intro h
      cases h
  | some segment =>
    rw [Overrides.parse, Overrides.ofDirectives,
      foldlM_eq_error_iff_first fun _ _ _ _ => Overrides.add_eq_error_iff]
    constructor
    · intro h
      cases h with
      | directive hsource' hdirectives hd hbefore =>
        rw [hsource] at hsource'
        cases hsource'
        exact ⟨_, _, _, hdirectives, hd, hbefore⟩
    · rintro ⟨before, d, after, hdirectives, hd, hbefore⟩
      exact .directive hsource hdirectives hd hbefore

theorem not_fails_delimiter (hsource : Source.segments source = .ok (settings, equations)) :
    ¬ Fails source .delimiter e := by
  rw [fails_delimiter_iff, hsource]
  exact fun h => by cases h

theorem not_fails_line {advise : Text → Option Hint} {read : List Equation × Option Hint}
    (hsource : Source.segments source = .ok (settings, equations))
    (hlines : Graph.readLines advise (Text.lines equations) = .ok read) :
    ¬ Fails source .line e := by
  rw [fails_line_iff advise hsource, hlines]
  exact fun h => by cases h

theorem not_fails_directive (hsource : Source.segments source = .ok (settings, equations))
    (ho : Overrides.parse settings = .ok o) : ¬ Fails source .directive e := by
  rw [fails_directive_iff hsource, ho]
  exact fun h => by cases h

theorem resolves_iff (hsource : Source.segments source = .ok (settings, equations))
    (ho : Overrides.parse settings = .ok o) :
    Resolves source s ↔ s = .ofOverrides o.adjusted := by
  constructor
  · rintro ⟨hsource', ho'⟩
    rw [hsource] at hsource'
    cases hsource'
    rw [ho] at ho'
    cases ho'
    rfl
  · rintro rfl
    exact ⟨hsource, ho⟩

theorem Resolves.unique {t : Settings} (hs : Resolves source s) (ht : Resolves source t) :
    s = t := by
  obtain ⟨hsource, ho⟩ := ht
  exact (resolves_iff hsource ho).mp hs

theorem Fails.unique {stage : Stage} (h : Fails source stage e) (h' : Fails source stage e') :
    e = e' := by
  cases h with
  | delimiter =>
    cases h'
    rfl
  | line hsource hlines hbefore hline =>
    have h := (fails_line_iff (fun _ => none) hsource).mp (.line hsource hlines hbefore hline)
    rw [(fails_line_iff (fun _ => none) hsource).mp h'] at h
    exact (Except.error.inj h).symm
  | directive hsource hdirectives hd hbefore =>
    have h := (fails_directive_iff hsource).mp (.directive hsource hdirectives hd hbefore)
    rw [(fails_directive_iff hsource).mp h'] at h
    exact (Except.error.inj h).symm
  | rule hs hbreaks =>
    cases h' with
    | rule hs' hbreaks' =>
      rw [hs'.unique hs] at hbreaks'
      exact hbreaks.unique hbreaks'

theorem FailsFirst.unique {stage stage' : Stage} (h : FailsFirst source stage e)
    (h' : FailsFirst source stage' e') : e = e' := by
  have hrank : stage.rank = stage'.rank := by
    rcases Nat.lt_trichotomy stage.rank stage'.rank with hlt | heq | hgt
    · exact absurd h.1 (h'.2 stage hlt e)
    · exact heq
    · exact absurd h'.1 (h.2 stage' hgt e')
  obtain rfl := rank_injective hrank
  exact h.1.unique h'.1

end Stage

namespace Graph

open Stage

variable {source : Text} {e : GraphError} {advise : Text → Option Hint}

theorem build_eq_error_iff {equations : List Equation} {o : Overrides} {hint : Option Hint} :
    build equations o hint = .error e ↔
      (Settings.ofOverrides o.adjusted).validate = .error e := by
  rw [build]
  split
  · next h => simp [h]
  · next e' h => simp [h]

theorem not_fails_of_parse {g : Graph} (h : parse advise source = .ok g) (stage : Stage)
    (e : GraphError) : ¬ Fails source stage e := by
  obtain ⟨⟨settings, equations⟩, hsource, h⟩ := bind_eq_ok_iff.mp h
  obtain ⟨⟨read, hint⟩, hlines, h⟩ := bind_eq_ok_iff.mp h
  obtain ⟨o, ho, h⟩ := bind_eq_ok_iff.mp h
  intro hfails
  cases hfails with
  | delimiter h => exact not_fails_delimiter hsource (.delimiter h)
  | line hs hl hb ho => exact not_fails_line hsource hlines (.line hs hl hb ho)
  | directive hs hd ho hb => exact not_fails_directive hsource ‹_› (.directive hs hd ho hb)
  | rule hs hbreaks =>
    rw [(resolves_iff hsource ho).mp hs] at hbreaks
    exact Settings.not_breaks_of_validate (valid_of_build h) hbreaks

theorem failsFirst_of_parse (h : parse advise source = .error e) :
    ∃ stage, FailsFirst source stage e := by
  rcases bind_eq_error_iff.mp h with hdelimiter | ⟨⟨settings, equations⟩, hsource, h⟩
  · exact ⟨.delimiter, fails_delimiter_iff.mpr hdelimiter,
      fun earlier hrank => absurd hrank (Nat.not_lt_zero _)⟩
  rcases bind_eq_error_iff.mp h with hline | ⟨⟨read, hint⟩, hlines, h⟩
  · refine ⟨.line, (fails_line_iff advise hsource).mpr hline, ?_⟩
    intro earlier hrank e'
    cases earlier with
    | delimiter => exact not_fails_delimiter hsource
    | _ => exact absurd hrank (by simp only [rank]; omega)
  rcases bind_eq_error_iff.mp h with hdirective | ⟨o, ho, h⟩
  · refine ⟨.directive, (fails_directive_iff hsource).mpr hdirective, ?_⟩
    intro earlier hrank e'
    cases earlier with
    | delimiter => exact not_fails_delimiter hsource
    | line => exact not_fails_line hsource hlines
    | _ => exact absurd hrank (by simp only [rank]; omega)
  -- every stage but the last has passed, and validation reports its first broken rule
  have hs : Resolves source (.ofOverrides o.adjusted) := ⟨hsource, ho⟩
  obtain ⟨rule, hbreaks, hfirst⟩ := Settings.exists_breaks_of_validate (build_eq_error_iff.mp h)
  refine ⟨.rule rule, .rule hs hbreaks, ?_⟩
  intro earlier hrank e' hfails
  cases hfails with
  | delimiter h => exact not_fails_delimiter hsource (.delimiter h)
  | line hs hl hb ho => exact not_fails_line hsource hlines (.line hs hl hb ho)
  | directive hs hd hb hf => exact not_fails_directive hsource ho (.directive hs hd hb hf)
  | rule hs' hbreaks' =>
    rw [hs'.unique hs] at hbreaks'
    exact hfirst _ (Nat.lt_of_add_lt_add_left hrank) e' hbreaks'

theorem parse_eq_error_iff :
    parse advise source = .error e ↔ ∃ stage, FailsFirst source stage e := by
  constructor
  · exact failsFirst_of_parse
  · rintro ⟨stage, hfirst⟩
    cases hparse : parse advise source with
    | ok g => exact absurd hfirst.1 (not_fails_of_parse hparse stage e)
    | error e' =>
      obtain ⟨stage', hfirst'⟩ := failsFirst_of_parse hparse
      rw [hfirst.unique hfirst']

/-- However LaTeX is converted, reading a block ends with a graph or with a refusal, as if nothing
else could go wrong; and a block is refused with what the first check that it fails has to say. -/
theorem parse_fails_first {ε : Type} (convert : Text → Except ε Text) (source : Text) :
    ((∃ g, Fault.parse convert source = .ok g) ∨
      ∃ e, Fault.parse convert source = .error (.refused e)) ∧
    Fault.parse convert source =
      (parse (Hint.ofRestriction? convert) source).mapError .refused ∧
    (∀ e, Fault.parse convert source = .error (.refused e) ↔
      ∃ stage, FailsFirst source stage e) ∧
    ∀ (advise : Text → Option Hint) (e : GraphError),
      parse advise source = .error e ↔ ∃ stage, FailsFirst source stage e := by
  rw [Fault.parse_eq]
  refine ⟨?_, rfl, ?_, fun _ _ => parse_eq_error_iff⟩
  · cases parse (Hint.ofRestriction? convert) source with
    | ok g => exact .inl ⟨g, rfl⟩
    | error e => exact .inr ⟨e, rfl⟩
  · intro e
    have hiff : parse (Hint.ofRestriction? convert) source = .error e ↔
        ∃ stage, FailsFirst source stage e := parse_eq_error_iff
    rw [← hiff]
    cases parse (Hint.ofRestriction? convert) source with
    | ok g => simp [Except.mapError]
    | error e' => simp [Except.mapError]

/-- Two lines, the size and the order of the edges are wrong; the first of the lines decides. -/
example :
    (parse Hint.bare "width=1e6;left=5;right=5\n---\ny=x\n|\ny=x|red|blue").map settings =
      .error (.noExpression "|") := by decide +kernel

end Graph

end GraphBlock
