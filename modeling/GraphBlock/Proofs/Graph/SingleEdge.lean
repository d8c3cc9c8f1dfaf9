import GraphBlock.Proofs.Graph.Inference
import GraphBlock.Proofs.Number.Sum
import GraphBlock.Proofs.Setting.Placed

/-!
Blocks that give one edge of an axis. The other edge is on the right side of it, inferred or
default, unless the edge is so far out that the default span is less than half of a step there: then
the sum is the edge itself, and the block is refused.
-/

namespace GraphBlock

namespace Axis

def bits : Axis → Nat
  | horizontal => 5
  | vertical => 4

/-- From here on the default span is less than half of a step. -/
def reach : Axis → Nat
  | horizontal => 2 ^ 58
  | vertical => 2 ^ 57

variable (axis : Axis) {x : Binary64}

theorem reach_eq : axis.reach = 2 ^ (53 + axis.bits) := by
  cases axis <;> rfl

theorem exists_span : ∃ k : Nat, axis.upper.span = k ∧ axis.lower.span = k ∧
    2 ^ axis.bits < 2 * k ∧ k < 2 ^ axis.bits := by
  cases axis with
  | horizontal => exact ⟨20, by decide⟩
  | vertical => exact ⟨14, by decide⟩

theorem lt_upper_iff (hx : x.isFinite = true) :
    (Number.float x).lt ((axis.upper.beyond? (.float x)).getD (.int axis.upper.default)) = true ↔
      ¬ (Number.int axis.reach).le (.float x) = true := by
  obtain ⟨k, hspan, -, hlow, hhigh⟩ := axis.exists_span
  have hdefault : (Number.int 0).le (.int axis.upper.default) = true := by
    cases axis <;> decide +kernel
  have hinside : (Number.int axis.upper.default).le (.int axis.reach) = true := by
    cases axis <;> decide +kernel
  rw [Edge.beyond?, if_pos axis.isUpper_upper, hspan]
  by_cases hbeyond : (Number.int axis.upper.default).le (.float x) = true
  · have hpos := Number.le_trans hdefault hbeyond
    have ht : axis.bits ≤ 52 := by cases axis <;> decide
    rw [if_pos hbeyond, Option.getD_some, Number.lt_add_span_iff hx hpos hlow hhigh ht,
      ← axis.reach_eq]
  · rw [if_neg hbeyond, Option.getD_none,
      (Number.placed_int _).lt_eq (Number.placed_of_isFinite hx), Bool.eq_false_iff.mpr hbeyond]
    exact iff_of_true rfl fun h => hbeyond (Number.le_trans hinside h)

theorem lower_lt_iff (hx : x.isFinite = true) :
    ((axis.lower.beyond? (.float x)).getD (.int axis.lower.default)).lt (.float x) = true ↔
      ¬ (Number.float x).le (.int (-axis.reach)) = true := by
  obtain ⟨k, -, hspan, hlow, hhigh⟩ := axis.exists_span
  have hdefault : (Number.int axis.lower.default).le (.int 0) = true := by
    cases axis <;> decide +kernel
  have hinside : (Number.int (-axis.reach)).le (.int axis.lower.default) = true := by
    cases axis <;> decide +kernel
  rw [Edge.beyond?, axis.isUpper_lower, if_neg Bool.false_ne_true, hspan]
  by_cases hbeyond : (Number.float x).le (.int axis.lower.default) = true
  · have hneg := Number.le_trans hbeyond hdefault
    have ht : axis.bits ≤ 52 := by cases axis <;> decide
    rw [if_pos hbeyond, Option.getD_some, Number.add_span_lt_iff hx hneg hlow hhigh ht,
      ← axis.reach_eq]
  · rw [if_neg hbeyond, Option.getD_none,
      (Number.placed_of_isFinite hx).lt_eq (Number.placed_int _), Bool.eq_false_iff.mpr hbeyond]
    exact iff_of_true rfl fun h => hbeyond (Number.le_trans h hinside)

end Axis

namespace Overrides

variable {o : Overrides} {axis : Axis}

/-- An edge that is given so far out that the default span is lost beside it. -/
inductive Remote (o : Overrides) (axis : Axis) : Prop
  | lower {x : Number} (hx : o.edge? axis.lower = some x)
      (h : (Number.int axis.reach).le x = true) : Remote o axis
  | upper {x : Number} (hx : o.edge? axis.upper = some x)
      (h : x.le (.int (-axis.reach)) = true) : Remote o axis

theorem exists_float_of_parse {segment : Option Text} (h : parse segment = .ok o) {e : Edge}
    {x : Number} (hx : o.edge? e = some x) : ∃ y : Binary64, x = .float y ∧ y.isFinite = true := by
  obtain ⟨value, hread⟩ := exists_read_of_parse h (edge?_eq_some_iff.mp hx)
  have hadmits := (Setting.read_eq_ok_iff.mp hread).2.admits
  cases x with
  | int n => cases hadmits
  | float y =>
    cases hadmits with
    | number hy => exact ⟨y, rfl, hy⟩

end Overrides

namespace Settings

variable {o : Overrides} {axis : Axis}

theorem lower_lt_upper_iff
    (hfinite : ∀ e x, o.edge? e = some x → ∃ y : Binary64, x = .float y ∧ y.isFinite = true)
    (hsingle : o.edge? axis.lower = none ∨ o.edge? axis.upper = none) :
    ((ofOverrides o.adjusted).edge axis.lower).lt ((ofOverrides o.adjusted).edge axis.upper) =
      true ↔ ¬ o.Remote axis := by
  have hlower := axis.opposite_lower
  have hupper := axis.opposite_upper
  cases hl : o.edge? axis.lower with
  | none =>
    cases hu : o.edge? axis.upper with
    | none =>
      -- both edges are the default ones
      rw [edge_of_none hl (hlower ▸ hu), edge_of_none hu (hupper ▸ hl)]
      refine iff_of_true (by cases axis <;> decide +kernel) ?_
      rintro (⟨hx, -⟩ | ⟨hx, -⟩)
      · rw [hl] at hx
        cases hx
      · rw [hu] at hx
        cases hx
    | some x =>
      obtain ⟨y, rfl, hy⟩ := hfinite _ _ hu
      rw [edge_of_opposite hl (hlower ▸ hu), edge_of_given hu, axis.lower_lt_iff hy, not_iff_not]
      constructor
      · exact .upper hu
      · rintro (⟨hx, -⟩ | ⟨hx, h⟩)
        · rw [hl] at hx
          cases hx
        · rw [hu] at hx
          cases hx
          exact h
  | some x =>
    have hu : o.edge? axis.upper = none := hsingle.resolve_left (by rw [hl]; exact nofun)
    obtain ⟨y, rfl, hy⟩ := hfinite _ _ hl
    rw [edge_of_given hl, edge_of_opposite hu (hupper ▸ hl), axis.lt_upper_iff hy, not_iff_not]
    constructor
    · exact .lower hl
    · rintro (⟨hx, h⟩ | ⟨hx, -⟩)
      · rw [hl] at hx
        cases hx
        exact h
      · rw [hu] at hx
        cases hx

theorem breaks_axis_iff_not_lt (ho : ∀ s ∈ o.entries, s.Placed) (axis : Axis) :
    (∃ e, (ofOverrides o).Breaks axis.rule e) ↔
      ¬ ((ofOverrides o).edge axis.lower).lt ((ofOverrides o).edge axis.upper) = true := by
  have hplaced (e : Edge) : ((ofOverrides o).edge e).Placed := by
    have h := placed_get ho (.edge e)
    rwa [get_edge] at h
  rw [breaks_axis_iff, (hplaced axis.upper).lt_eq (hplaced axis.lower)]
  simp

end Settings

def GraphError.axis? : GraphError → Option Axis
  | rightNotAboveLeft .. => some .horizontal
  | topNotAboveBottom .. => some .vertical
  | _ => none

theorem EquationLine.Offends.axis?_eq_none {line : Text} {e : GraphError} (h : Offends line e) :
    e.axis? = none := by
  cases h with
  | empty => rfl
  | tag _ _ ht => cases ht <;> rfl

theorem Settings.exists_axis_error_iff {s : Settings} :
    (∃ e, s.validate = .error e ∧ e.axis?.isSome = true) ↔
      (∀ e, ¬ s.Breaks .size e) ∧ ∃ (axis : Axis) (e : GraphError), s.Breaks axis.rule e := by
  constructor
  · rintro ⟨e, h, haxis⟩
    obtain ⟨rule, hbreaks, hfirst⟩ := exists_breaks_of_validate h
    cases hbreaks with
    | size => cases haxis
    | horizontal hle => exact ⟨hfirst .size (by decide), .horizontal, _, .horizontal hle⟩
    | vertical hle => exact ⟨hfirst .size (by decide), .vertical, _, .vertical hle⟩
  · rintro ⟨hsize, axis, hbreaks⟩
    cases h : s.validate with
    | ok => exact absurd hbreaks ((validate_eq_ok_iff_breaks.mp h).2 axis)
    | error e =>
      obtain ⟨rule, hbreaks, -⟩ := exists_breaks_of_validate h
      cases hbreaks with
      | size hlarge => exact absurd (.size hlarge) (hsize _)
      | horizontal => exact ⟨_, rfl, rfl⟩
      | vertical => exact ⟨_, rfl, rfl⟩

namespace Graph

variable {advise : Text → Option Hint} {source equations : Text} {settings : Option Text}
  {o : Overrides}

theorem exists_axis_error_iff (hsource : Source.segments source = .ok (settings, equations))
    (ho : Overrides.parse settings = .ok o) :
    (∃ e, parse advise source = .error e ∧ e.axis?.isSome = true) ↔
      (∃ read, readLines advise (Text.lines equations) = .ok read) ∧
      ∃ e, (Settings.ofOverrides o.adjusted).validate = .error e ∧ e.axis?.isSome = true := by
  cases hlines : readLines advise (Text.lines equations) with
  | error e =>
    have hparse : parse advise source = .error e := by
      simp only [parse, hsource, hlines, bind, Except.bind]
    have hnone : e.axis? = none := by
      have hfails := (Stage.fails_line_iff advise hsource).mpr hlines
      cases hfails with
      | line _ _ _ hline => exact hline.axis?_eq_none
    constructor
    · rintro ⟨e', h, haxis⟩
      rw [hparse] at h
      cases h
      rw [hnone] at haxis
      cases haxis
    · rintro ⟨⟨read, h⟩, -⟩
      cases h
  | ok read =>
    have hparse : parse advise source = build read.1 o read.2 := by
      simp only [parse, hsource, hlines, ho, bind, Except.bind]
    rw [hparse]
    simp only [build_eq_error_iff, Except.ok.injEq, exists_eq', true_and]

/-- Where the settings give at most one edge of each axis, an axis is in order unless that edge is
so far out that the default span is lost beside it, and only then can a block be refused for its
edges. -/
theorem parse_single_edge (advise : Text → Option Hint)
    (hsource : Source.segments source = .ok (settings, equations))
    (ho : Overrides.parse settings = .ok o)
    (hsingle : ∀ axis : Axis, o.edge? axis.lower = none ∨ o.edge? axis.upper = none) :
    (∀ axis : Axis, ((Settings.ofOverrides o.adjusted).edge axis.lower).lt
      ((Settings.ofOverrides o.adjusted).edge axis.upper) = true ↔ ¬ o.Remote axis) ∧
    ((∃ e, parse advise source = .error e ∧ e.axis?.isSome = true) ↔
      (∃ read, readLines advise (Text.lines equations) = .ok read) ∧
      (∀ e, ¬ (Settings.ofOverrides o.adjusted).Breaks .size e) ∧ ∃ axis, o.Remote axis) := by
  have hplaced := Overrides.placed_adjusted (Overrides.placed_of_parse ho)
  have horder (axis : Axis) := Settings.lower_lt_upper_iff
    (fun _ _ => Overrides.exists_float_of_parse ho) (hsingle axis)
  refine ⟨horder, ?_⟩
  rw [exists_axis_error_iff hsource ho, Settings.exists_axis_error_iff]
  simp only [Settings.breaks_axis_iff_not_lt hplaced, horder, not_not]

theorem parse_single_edge_inferred :
    let o := Overrides.empty.putAll
      [.edge .left (.float (.ofInt (10 ^ 17))), .edge .top (.float (.ofInt (-10 ^ 17)))]
    Source.segments "left=1e17;top=-1e17\n---\ny=x" =
        .ok (some "left=1e17;top=-1e17\n", "\ny=x") ∧
      Overrides.parse (some "left=1e17;top=-1e17\n") = .ok o ∧
      (∀ axis : Axis, o.edge? axis.lower = none ∨ o.edge? axis.upper = none) ∧
      (∀ axis : Axis, ((Settings.ofOverrides o.adjusted).edge axis.lower).lt
        ((Settings.ofOverrides o.adjusted).edge axis.upper) = true) ∧
      ¬ ∃ e, parse Hint.bare "left=1e17;top=-1e17\n---\ny=x" = .error e ∧
        e.axis?.isSome = true := by
  intro o
  have hsource : Source.segments "left=1e17;top=-1e17\n---\ny=x" =
      .ok (some "left=1e17;top=-1e17\n", "\ny=x") := by decide +kernel
  have ho : Overrides.parse (some "left=1e17;top=-1e17\n") = .ok o := by decide +kernel
  have hsingle : ∀ axis : Axis, o.edge? axis.lower = none ∨ o.edge? axis.upper = none := by
    rintro (_ | _)
    · exact .inr (by decide +kernel)
    · exact .inl (by decide +kernel)
  have hnear : ∀ axis, ¬ o.Remote axis := by
    rintro (_ | _) (⟨hx, h⟩ | ⟨hx, h⟩) <;> cases hx
    · exact absurd h (by decide +kernel)
    · exact absurd h (by decide +kernel)
  obtain ⟨horder, hrefused⟩ := parse_single_edge Hint.bare hsource ho hsingle
  refine ⟨hsource, ho, hsingle, fun axis => (horder axis).mpr (hnear axis), ?_⟩
  rw [hrefused]
  rintro ⟨-, -, axis, hfar⟩
  exact hnear axis hfar

/-- A single edge is not always enough: beside a left edge of `10 ^ 18` the default span is lost. -/
theorem not_parse_single_edge :
    (∃ o, Overrides.parse (some "left=1e18\n") = .ok o ∧
      o.keys = [.edge .left]) ∧
    (parse Hint.bare "left=1e18\n---\ny=x").map Graph.settings =
      .error (.rightNotAboveLeft (.float (.ofInt (10 ^ 18))) (.float (.ofInt (10 ^ 18)))) :=
  ⟨⟨Overrides.empty.putAll [.edge .left (.float (.ofInt (10 ^ 18)))], by decide +kernel, by decide⟩,
    by decide +kernel⟩

end Graph

end GraphBlock
