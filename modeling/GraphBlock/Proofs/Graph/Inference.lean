import GraphBlock.Proofs.Graph.Failure
import GraphBlock.Proofs.Setting.Inference

namespace GraphBlock

def Axis.rule : Axis → Settings.Rule
  | horizontal => .horizontal
  | vertical => .vertical

namespace Settings

variable {s : Settings} {axis : Axis} {o : Overrides}

theorem breaks_axis_iff :
    (∃ e, s.Breaks axis.rule e) ↔ (s.edge axis.upper).le (s.edge axis.lower) = true := by
  cases axis with
  | horizontal =>
    constructor
    · rintro ⟨e, ⟨⟩⟩
      assumption
    · exact fun h => ⟨_, .horizontal h⟩
  | vertical =>
    constructor
    · rintro ⟨e, ⟨⟩⟩
      assumption
    · exact fun h => ⟨_, .vertical h⟩

theorem validate_eq_ok_iff_breaks : s.validate = .ok () ↔
    (∀ e, ¬ s.Breaks .size e) ∧ ∀ axis : Axis, ¬ ∃ e, s.Breaks axis.rule e := by
  constructor
  · intro h
    exact ⟨fun e => not_breaks_of_validate h, fun axis ⟨e, he⟩ => not_breaks_of_validate h he⟩
  · rintro ⟨hsize, haxes⟩
    cases h : s.validate with
    | ok => rfl
    | error e =>
      obtain ⟨rule, hbreaks, -⟩ := exists_breaks_of_validate h
      cases rule with
      | size => exact absurd hbreaks (hsize e)
      | horizontal => exact absurd ⟨e, hbreaks⟩ (haxes .horizontal)
      | vertical => exact absurd ⟨e, hbreaks⟩ (haxes .vertical)

/-- An inferred or default edge above an integer is an integer above it. -/
theorem lt_upper_of_lower {n : Int} (hlower : o.edge? axis.lower = some (.int n))
    (hupper : o.edge? axis.upper = none) :
    ∃ m : Int, (ofOverrides o.adjusted).edge axis.upper = .int m ∧ n < m := by
  have hspan := axis.upper.span_pos
  rw [← axis.opposite_upper] at hlower
  rw [edge_of_opposite hupper hlower, Edge.beyond?_int, if_pos axis.isUpper_upper]
  split
  · exact ⟨_, rfl, by omega⟩
  · exact ⟨_, rfl, by omega⟩

theorem lower_lt_of_upper {n : Int} (hupper : o.edge? axis.upper = some (.int n))
    (hlower : o.edge? axis.lower = none) :
    ∃ m : Int, (ofOverrides o.adjusted).edge axis.lower = .int m ∧ m < n := by
  have hspan := axis.lower.span_pos
  rw [← axis.opposite_lower] at hupper
  rw [edge_of_opposite hlower hupper, Edge.beyond?_int, axis.isUpper_lower, if_neg (by decide)]
  split
  · exact ⟨_, rfl, by omega⟩
  · exact ⟨_, rfl, by omega⟩

theorem breaks_axis_int_iff {low high : Int} (hlow : s.edge axis.lower = .int low)
    (hhigh : s.edge axis.upper = .int high) : (∃ e, s.Breaks axis.rule e) ↔ ¬ low < high := by
  rw [breaks_axis_iff, hlow, hhigh, Number.le_int, decide_eq_true_eq, Int.not_lt]

theorem breaks_axis_adjusted_iff (ho : o.Integral) (axis : Axis) :
    (∃ e, (ofOverrides o.adjusted).Breaks axis.rule e) ↔
      ∃ low high : Int, o.edge? axis.lower = some (.int low) ∧
        o.edge? axis.upper = some (.int high) ∧ ¬ low < high := by
  cases hlower : o.edge? axis.lower with
  | none =>
    cases hupper : o.edge? axis.upper with
    | none =>
      have hlow : o.edge? axis.lower.opposite = none := by rwa [axis.opposite_lower]
      have hhigh : o.edge? axis.upper.opposite = none := by rwa [axis.opposite_upper]
      rw [breaks_axis_int_iff (edge_of_none hlower hlow) (edge_of_none hupper hhigh)]
      cases axis <;> simp [Axis.lower, Axis.upper, Edge.default]
    | some x =>
      obtain ⟨n, rfl⟩ := ho _ _ hupper
      obtain ⟨m, hm, hlt⟩ := lower_lt_of_upper hupper hlower
      rw [breaks_axis_int_iff hm (edge_of_given hupper)]
      simp [hlt]
  | some x =>
    obtain ⟨low, rfl⟩ := ho _ _ hlower
    cases hupper : o.edge? axis.upper with
    | none =>
      obtain ⟨m, hm, hlt⟩ := lt_upper_of_lower hlower hupper
      rw [breaks_axis_int_iff (edge_of_given hlower) hm]
      simp [hlt]
    | some y =>
      obtain ⟨high, rfl⟩ := ho _ _ hupper
      rw [breaks_axis_int_iff (edge_of_given hlower) (edge_of_given hupper)]
      simp

end Settings

namespace Graph

open Overrides

variable {o : Overrides} {equations : List Equation} {hint : Option Hint} {g : Graph}

theorem build_adjusted (o : Overrides) (equations : List Equation) (hint : Option Hint) :
    (build equations o.adjusted hint).map (fun g => (g.equations, g.settings, g.hint, g.hash)) =
      (build equations o hint).map fun g => (g.equations, g.settings, g.hint, g.hash) := by
  have htwice : Settings.ofOverrides o.adjusted.adjusted = .ofOverrides o.adjusted := by
    rw [adjusted_adjusted]
  cases hvalid : (Settings.ofOverrides o.adjusted).validate with
  | ok =>
    obtain ⟨g, hg⟩ := exists_build equations hint hvalid
    obtain ⟨h, hh⟩ := exists_build equations hint (htwice ▸ hvalid)
    obtain ⟨hgsource, hgwritten, hghint⟩ := build_eq_ok_iff.mp hg
    obtain ⟨hhsource, hhwritten, hhhint⟩ := build_eq_ok_iff.mp hh
    have hadjusted : h.written.adjusted = g.written.adjusted := by
      rw [hhwritten, hgwritten, adjusted_adjusted]
    have hsettings : h.settings = g.settings := by
      rw [settings, settings, hadjusted]
    have hequations : h.equations = g.equations := by
      rw [Graph.equations, Graph.equations, hsettings, hhsource, hgsource]
    have hhash : h.hash = g.hash := by
      rw [hash, hash, content, content, hadjusted, hhsource, hgsource]
    simp only [hg, hh, Except.map, hsettings, hequations, hhash, hhhint, hghint]
  | error e =>
    rw [build_eq_error_iff.mpr hvalid, build_eq_error_iff.mpr (htwice ▸ hvalid)]

/-- Where the edges are integers of any size, inference adds at most one integer edge to each axis
after what is written, an axis fails just where both of its edges are written out of order, and
nothing changes if edges are inferred before the graph is built. -/
theorem build_inferred (ho : o.Integral) :
    (∃ added : List (Edge × Int),
      o.adjusted.entries = o.entries ++ added.map (fun a => Setting.edge a.1 (.int a.2)) ∧
      (added.map (·.1.axis)).Nodup) ∧
    adjustedRecord (toRecord o.entries) = toRecord o.adjusted.entries ∧
    (∀ axis : Axis, (∃ e, (Settings.ofOverrides o.adjusted).Breaks axis.rule e) ↔
      ∃ low high : Int, o.edge? axis.lower = some (.int low) ∧
        o.edge? axis.upper = some (.int high) ∧ ¬ low < high) ∧
    ((Settings.ofOverrides o.adjusted).validate = .ok () ↔
      (∀ e, ¬ (Settings.ofOverrides o.adjusted).Breaks .size e) ∧
      ∀ axis : Axis, ∀ low high : Int, o.edge? axis.lower = some (.int low) →
        o.edge? axis.upper = some (.int high) → low < high) ∧
    o.adjusted.adjusted = o.adjusted ∧
    ∀ (equations : List Equation) (hint : Option Hint),
      (build equations o.adjusted hint).map (fun g => (g.equations, g.settings, g.hint, g.hash)) =
        (build equations o hint).map fun g => (g.equations, g.settings, g.hint, g.hash) := by
  refine ⟨ho.exists_added, adjustedRecord_toRecord o, Settings.breaks_axis_adjusted_iff ho, ?_,
    adjusted_adjusted o, build_adjusted o⟩
  rw [Settings.validate_eq_ok_iff_breaks]
  simp only [Settings.breaks_axis_adjusted_iff ho, not_exists, not_and, not_not]

theorem build_inferred_equal :
    let o := Overrides.empty.putAll
      [.edge .bottom (.int 5), .edge .left (.int (10 ^ 400)), .edge .top (.int 5)]
    o.Integral ∧ (∃ e, (Settings.ofOverrides o.adjusted).Breaks Axis.vertical.rule e) ∧
      ¬ (∃ e, (Settings.ofOverrides o.adjusted).Breaks Axis.horizontal.rule e) ∧
      o.adjusted.edge? .right = some (.int (10 ^ 400 + 20)) := by
  intro o
  have ho : o.Integral := by
    intro e x h
    cases e with
    | right => cases h
    | _ => exact ⟨_, (Option.some.inj h).symm⟩
  obtain ⟨-, -, hbreaks, -⟩ := build_inferred ho
  have hvertical := (hbreaks .vertical).mpr ⟨5, 5, by decide, by decide, by decide⟩
  refine ⟨ho, hvertical, ?_, by decide +kernel⟩
  rw [hbreaks]
  rintro ⟨low, high, -, hhigh, -⟩
  cases hhigh

end Graph

end GraphBlock
