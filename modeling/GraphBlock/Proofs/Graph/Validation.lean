import GraphBlock.Proofs.Graph.Agreement
import GraphBlock.Proofs.Setting.Inference
import GraphBlock.Proofs.Setting.Placed

/-!
What validation lets through. Each rule is checked by the comparison that would break it, and what
is not a number breaks no comparison: the rules hold of all numbers that can be compared, and of
the others nothing is known.
-/

namespace GraphBlock

def Setting.number? : Setting → Option Number
  | size _ n => some n
  | edge _ x => some x
  | _ => none

def Overrides.Comparable (o : Overrides) : Prop :=
  ∀ s ∈ o.entries, ∀ x, s.number? = some x → x.Placed

theorem Overrides.Comparable.merge {o updates : Overrides} (ho : o.Comparable)
    (hupdates : updates.Comparable) : (o.merge updates).Comparable :=
  forall_putAll hupdates ho

theorem Overrides.Comparable.adjusted {o : Overrides} (ho : o.Comparable) :
    o.adjusted.Comparable := by
  intro s hs x hx
  rw [entries_adjusted, List.mem_append] at hs
  rcases hs with hs | hs
  · exact ho s hs x hx
  · obtain ⟨⟨e, y⟩, hy, rfl⟩ := List.mem_map.mp hs
    obtain ⟨-, z, hz, hbeyond⟩ := Edge.inferred?_eq_some_iff.mp (Edge.mem_inferred.mp hy)
    cases hx
    exact Edge.placed_of_beyond? (ho _ (edge?_eq_some_iff.mp hz) z rfl) hbeyond

namespace Settings

variable {s : Settings}

/-- The rules as far as they are checked: each of them for numbers that can be compared. -/
structure Tolerated (s : Settings) : Prop where
  width_le : s.width.Placed → s.width.le (.int maxSize) = true
  height_le : s.height.Placed → s.height.le (.int maxSize) = true
  lower_lt_upper (axis : Axis) : (s.edge axis.lower).Placed → (s.edge axis.upper).Placed →
    (s.edge axis.lower).lt (s.edge axis.upper) = true

def Comparable (s : Settings) : Prop := ∀ k x, (s.get k).number? = some x → x.Placed

theorem Comparable.edge (h : s.Comparable) (e : Edge) : (s.edge e).Placed :=
  h (.edge e) _ (by rw [get_edge]; rfl)

theorem comparable_merged {o : Overrides} (ho : o.Comparable) (hs : s.Comparable) :
    (s.merged o).Comparable := by
  intro k x hx
  rw [get_merged] at hx
  cases hget : o.get? k with
  | none =>
    rw [hget] at hx
    exact hs k x hx
  | some t =>
    rw [hget] at hx
    exact ho t (Overrides.get?_eq_some_iff.mp hget).1 x hx

theorem comparable_default : default.Comparable := by
  intro k x hx
  rcases k with ⟨⟨⟩⟩ | ⟨⟨⟩⟩ | ⟨⟨⟩⟩ | _ | _ <;> cases hx <;> rfl

theorem validate_eq_ok_iff_tolerated : s.validate = .ok () ↔ s.Tolerated := by
  have hmax := Number.placed_int maxSize
  rw [validate_eq_ok_iff]
  simp only [Number.not_lt_iff, Number.not_le_iff]
  constructor
  · rintro ⟨⟨hwidth, hheight⟩, hhorizontal, hvertical⟩
    refine ⟨hwidth hmax, hheight hmax, ?_⟩
    rintro (_ | _) hlow hhigh
    · exact hhorizontal hhigh hlow
    · exact hvertical hhigh hlow
  · rintro ⟨hwidth, hheight, haxes⟩
    exact ⟨⟨fun _ => hwidth, fun _ => hheight⟩, fun hhigh hlow => haxes .horizontal hlow hhigh,
      fun hhigh hlow => haxes .vertical hlow hhigh⟩

theorem ordered_iff : s.Ordered ↔ s.Tolerated ∧ s.Comparable := by
  constructor
  · rintro ⟨hwidth, hheight, hhorizontal, hvertical⟩
    refine ⟨⟨fun _ => hwidth, fun _ => hheight, ?_⟩, ?_⟩
    · rintro (_ | _) _ _
      · exact hhorizontal
      · exact hvertical
    · intro k x hx
      rcases k with ⟨⟨⟩⟩ | ⟨⟨⟩⟩ | ⟨⟨⟩⟩ | _ | _ <;> cases hx
      · exact (Number.placed_of_le hwidth).1
      · exact (Number.placed_of_le hheight).1
      · exact (Number.placed_of_lt hhorizontal).1
      · exact (Number.placed_of_lt hhorizontal).2
      · exact (Number.placed_of_lt hvertical).1
      · exact (Number.placed_of_lt hvertical).2
  · rintro ⟨⟨hwidth, hheight, haxes⟩, hcomparable⟩
    have hedge := hcomparable.edge
    exact ⟨hwidth (hcomparable (.size .width) _ rfl), hheight (hcomparable (.size .height) _ rfl),
      haxes .horizontal (hedge .left) (hedge .right), haxes .vertical (hedge .bottom) (hedge .top)⟩

end Settings

namespace Graph

variable {equations : List Equation} {o : Overrides} {hint : Option Hint} {g : Graph}

theorem ordered_of_build (ho : o.Comparable) (h : build equations o hint = .ok g) :
    g.settings.Ordered := by
  have hvalid := valid_of_build h
  obtain ⟨-, hwritten, -⟩ := build_eq_ok_iff.mp h
  rw [settings, hwritten, Settings.ordered_iff, ← Settings.validate_eq_ok_iff_tolerated]
  exact ⟨hvalid, Settings.comparable_merged ho.adjusted Settings.comparable_default⟩

theorem tolerated_of_build (h : build equations o hint = .ok g) : g.settings.Tolerated := by
  have hvalid := valid_of_build h
  obtain ⟨-, hwritten, -⟩ := build_eq_ok_iff.mp h
  rwa [settings, hwritten, ← Settings.validate_eq_ok_iff_tolerated]

/-- Whatever the numbers, merged settings are accepted just when they keep the rules as far as
numbers can be compared. They keep the rules themselves just when they are accepted and all of their
numbers can be compared; so do graphs and what updates make of them. -/
theorem validate_merged_iff (updates : Overrides) :
    ((Settings.default.merged updates).validate = .ok () ↔
      (Settings.default.merged updates).Tolerated) ∧
    ((Settings.default.merged updates).Ordered ↔
      (Settings.default.merged updates).validate = .ok () ∧
      (Settings.default.merged updates).Comparable) ∧
    (updates.Comparable → ((Settings.default.merged updates).validate = .ok () ↔
      (Settings.default.merged updates).Ordered)) ∧
    (∀ equations hint g, build equations updates hint = .ok g →
      g.settings.Tolerated ∧ (updates.Comparable → g.settings.Ordered)) ∧
    ∀ g h : Graph, g.withSettings updates = .ok h →
      h.settings.Tolerated ∧ (g.written.Comparable → updates.Comparable → h.settings.Ordered) := by
  have hordered : (Settings.default.merged updates).Ordered ↔
      (Settings.default.merged updates).validate = .ok () ∧
      (Settings.default.merged updates).Comparable := by
    rw [Settings.ordered_iff, Settings.validate_eq_ok_iff_tolerated]
  refine ⟨Settings.validate_eq_ok_iff_tolerated, hordered, ?_, ?_, ?_⟩
  · intro hupdates
    rw [hordered, and_iff_left (Settings.comparable_merged hupdates Settings.comparable_default)]
  · intro equations hint g h
    exact ⟨tolerated_of_build h, fun hupdates => ordered_of_build hupdates h⟩
  · intro g h hbuild
    exact ⟨tolerated_of_build hbuild,
      fun hwritten hupdates => ordered_of_build (hwritten.merge hupdates) hbuild⟩

theorem validate_merged_infinite :
    let updates := Overrides.empty.putAll [.edge .left (.float (.infinite true)),
      .size .width (.int 99999), .edge .bottom (.int (2 ^ 53 - 1)),
      .edge .top (.float (.ofInt (2 ^ 53)))]
    updates.Comparable ∧ (Settings.default.merged updates).validate = .ok () ∧
      (Settings.default.merged updates).Ordered := by
  intro updates
  have hcomparable : updates.Comparable := by
    intro s hs x hx
    have hall : ∀ s ∈ updates.entries, ∀ x ∈ s.number?, x.place?.isSome = true := by
      decide +kernel
    exact hall s hs x hx
  have hvalid : (Settings.default.merged updates).validate = .ok () := by decide +kernel
  exact ⟨hcomparable, hvalid, ((validate_merged_iff updates).2.2.1 hcomparable).mp hvalid⟩

/-- A left edge that is not a number is accepted, and a graph is built with it. -/
theorem not_validate_merged_iff :
    let updates := Overrides.empty.putAll [.edge .left (.float .nan)]
    (Settings.default.merged updates).validate = .ok () ∧
      (Settings.default.merged updates).left.lt (Settings.default.merged updates).right = false ∧
      ∃ g, build [] updates none = .ok g ∧ g.settings.left.lt g.settings.right = false := by
  intro updates
  have hvalid : (Settings.ofOverrides updates.adjusted).validate = .ok () := by decide +kernel
  have hedges : (Settings.ofOverrides updates.adjusted).left.lt
      (Settings.ofOverrides updates.adjusted).right = false := by decide +kernel
  exact ⟨by decide +kernel, by decide +kernel, ⟨[], updates, none, hvalid⟩,
    build_eq_ok_iff.mpr ⟨rfl, rfl, rfl⟩, hedges⟩

end Graph

end GraphBlock
