import GraphBlock.Proofs.Setting.Lookup
import Mathlib.Data.List.Nodup
import Mathlib.Data.Set.List

namespace GraphBlock

inductive Axis
  | horizontal
  | vertical
  deriving DecidableEq, Repr

namespace Axis

def lower : Axis → Edge
  | horizontal => .left
  | vertical => .bottom

def upper : Axis → Edge
  | horizontal => .right
  | vertical => .top

variable (axis : Axis)

theorem opposite_lower : axis.lower.opposite = axis.upper := by
  cases axis <;> rfl

theorem opposite_upper : axis.upper.opposite = axis.lower := by
  cases axis <;> rfl

theorem isUpper_lower : axis.lower.isUpper = false := by
  cases axis <;> rfl

theorem isUpper_upper : axis.upper.isUpper = true := by
  cases axis <;> rfl

end Axis

namespace Edge

def axis : Edge → Axis
  | left | right => .horizontal
  | bottom | top => .vertical

theorem opposite_opposite (e : Edge) : e.opposite.opposite = e := by
  cases e <;> rfl

theorem eq_or_eq_opposite {d e : Edge} (h : d.axis = e.axis) : d = e ∨ d = e.opposite := by
  revert h
  cases d <;> cases e <;> decide

variable {given : Edge → Option Number} {e : Edge} {x : Number}

theorem inferred?_eq_some_iff :
    inferred? given e = some x ↔
      given e = none ∧ ∃ y, given e.opposite = some y ∧ e.beyond? y = some x := by
  rw [inferred?]
  cases given e <;> cases given e.opposite <;> simp

theorem inferred?_opposite (h : inferred? given e = some x) :
    inferred? given e.opposite = none := by
  obtain ⟨-, y, hy, -⟩ := inferred?_eq_some_iff.mp h
  rw [inferred?, hy]

theorem mem_inferred : (e, x) ∈ inferred given ↔ inferred? given e = some x := by
  have hall : e ∈ [right, left, top, bottom] := by cases e <;> decide
  simp only [inferred, List.mem_filterMap, Option.map_eq_some_iff, Prod.mk.injEq]
  constructor
  · rintro ⟨d, -, y, hd, rfl, rfl⟩
    exact hd
  · intro h
    exact ⟨e, hall, x, h, rfl, rfl⟩

theorem nodup_axes_inferred (given : Edge → Option Number) :
    ((inferred given).map (·.1.axis)).Nodup := by
  apply List.Nodup.map_on
  · rintro ⟨d, x⟩ hd ⟨e, y⟩ he haxis
    rw [mem_inferred] at hd he
    rcases eq_or_eq_opposite haxis with rfl | rfl
    · rw [hd, Option.some.injEq] at he
      rw [he]
    · rw [inferred?_opposite he] at hd
      cases hd
  · apply List.Nodup.filterMap _ (by decide)
    rintro d e ⟨c, z⟩ hd he
    simp only [Option.mem_def, Option.map_eq_some_iff, Prod.mk.injEq] at hd he
    obtain ⟨-, -, rfl, -⟩ := hd
    obtain ⟨-, -, rfl, -⟩ := he
    rfl

end Edge

theorem Value.number?_ofNumber (x : Number) : (ofNumber x).number? = some x := by
  cases x <;> rfl

namespace Overrides

variable {o : Overrides} {e : Edge} {x : Number}

theorem get?_edge (o : Overrides) (e : Edge) :
    o.get? (.edge e) = (o.edge? e).map (Setting.edge e) := by
  rw [edge?]
  cases h : o.get? (.edge e) with
  | none => rfl
  | some s =>
    have hkey := (get?_eq_some_iff.mp h).2
    cases s with
    | edge d y =>
      cases hkey
      rfl
    | _ => cases hkey

theorem edge?_eq_some_iff : o.edge? e = some x ↔ Setting.edge e x ∈ o.entries := by
  have hget : o.get? (.edge e) = some (.edge e x) ↔ Setting.edge e x ∈ o.entries := by
    rw [get?_eq_some_iff]
    exact and_iff_left rfl
  rw [← hget, get?_edge]
  simp

theorem entries_adjusted (o : Overrides) :
    o.adjusted.entries =
      o.entries ++ (Edge.inferred o.edge?).map fun a => Setting.edge a.1 a.2 := by
  apply entries_putAll_of_new
  · have hedges : ((Edge.inferred o.edge?).map (·.1)).Nodup := by
      apply List.Nodup.of_map Edge.axis
      rw [List.map_map]
      exact Edge.nodup_axes_inferred _
    have hkeys : ((Edge.inferred o.edge?).map fun a => Setting.edge a.1 a.2).map Setting.key =
        ((Edge.inferred o.edge?).map (·.1)).map Key.edge := by
      rw [List.map_map, List.map_map]
      rfl
    rw [hkeys]
    exact hedges.map fun d e h => Key.edge.inj h
  · intro s hs hkey
    obtain ⟨⟨e, x⟩, ha, rfl⟩ := List.mem_map.mp hs
    obtain ⟨hnone, -⟩ := Edge.inferred?_eq_some_iff.mp (Edge.mem_inferred.mp ha)
    obtain ⟨t, ht, hte⟩ := List.mem_map.mp hkey
    have hget := get?_of_mem ht
    have hnot : o.get? (.edge e) = none := by rw [get?_edge, hnone, Option.map_none]
    rw [hte, show (Setting.edge e x).key = .edge e from rfl, hnot] at hget
    cases hget

theorem edge?_adjusted (o : Overrides) (e : Edge) :
    o.adjusted.edge? e = (o.edge? e).or (Edge.inferred? o.edge? e) := by
  apply Option.ext
  intro x
  rw [edge?_eq_some_iff, entries_adjusted, List.mem_append, ← edge?_eq_some_iff,
    Option.or_eq_some_iff]
  have hinferred : Setting.edge e x ∈ (Edge.inferred o.edge?).map (fun a => .edge a.1 a.2) ↔
      Edge.inferred? o.edge? e = some x := by
    rw [← Edge.mem_inferred, List.mem_map]
    constructor
    · rintro ⟨⟨d, y⟩, ha, heq⟩
      cases heq
      exact ha
    · exact fun ha => ⟨_, ha, rfl⟩
  rw [hinferred]
  apply or_congr_right'
  intro _
  constructor
  · intro h
    exact ⟨(Edge.inferred?_eq_some_iff.mp h).1, h⟩
  · exact And.right

/-- After inference no edge is left to be inferred. -/
theorem inferred?_adjusted (o : Overrides) (e : Edge) :
    Edge.inferred? o.adjusted.edge? e = none := by
  rw [Option.eq_none_iff_forall_ne_some]
  intro x hx
  obtain ⟨hnone, y, hy, hbeyond⟩ := Edge.inferred?_eq_some_iff.mp hx
  rw [edge?_adjusted, Option.or_eq_none_iff] at hnone
  rw [edge?_adjusted, Option.or_eq_some_iff] at hy
  rcases hy with hgiven | ⟨-, hinferred⟩
  · -- the first inference would have found it
    have h := Edge.inferred?_eq_some_iff.mpr ⟨hnone.1, y, hgiven, hbeyond⟩
    rw [h] at hnone
    cases hnone.2
  · -- the opposite was inferred, so the edge itself is given
    obtain ⟨-, z, hz, -⟩ := Edge.inferred?_eq_some_iff.mp hinferred
    rw [Edge.opposite_opposite, hnone.1] at hz
    cases hz

theorem adjusted_adjusted (o : Overrides) : o.adjusted.adjusted = o.adjusted := by
  have hnone : Edge.inferred o.adjusted.edge? = [] := by
    rw [List.eq_nil_iff_forall_not_mem]
    rintro ⟨e, x⟩ ha
    rw [Edge.mem_inferred, inferred?_adjusted] at ha
    cases ha
  rw [adjusted, hnone]
  rfl

theorem adjustedRecord_toRecord (o : Overrides) :
    adjustedRecord (toRecord o.entries) = toRecord o.adjusted.entries := by
  have hgiven : (fun e : Edge => ((toRecord o.entries).find? (·.1 == e.name)).bind
      fun entry => entry.2.number?) = o.edge? := by
    funext e
    have hname : ((fun entry : Text × Value => entry.1 == e.name) ∘
        fun s : Setting => (s.key.name, s.toValue)) = fun s => decide (s.key = .edge e) := by
      funext s
      rw [Function.comp_apply, beq_eq_decide, decide_eq_decide]
      exact ⟨fun h => Key.name_injective h, fun h => h ▸ rfl⟩
    rw [toRecord, List.find?_map, hname, ← get?, get?_edge]
    cases o.edge? e with
    | none => rfl
    | some x => exact Value.number?_ofNumber x
  rw [adjustedRecord, hgiven, entries_adjusted, toRecord, toRecord, List.map_append, List.map_map]
  rfl

def Integral (o : Overrides) : Prop := ∀ e x, o.edge? e = some x → ∃ n : Int, x = .int n

end Overrides

namespace Edge

variable {given : Edge → Option Number} {e : Edge}

theorem span_pos (e : Edge) : 0 < e.span := by
  cases e <;> decide

theorem beyond?_int (e : Edge) (n : Int) :
    e.beyond? (.int n) =
      if e.isUpper then if e.default ≤ n then some (.int (n + e.span)) else none
      else if n ≤ e.default then some (.int (n - e.span)) else none := by
  simp only [beyond?, Number.le_int, Number.add, decide_eq_true_eq, ← Int.sub_eq_add_neg]

theorem inferred?_int (hgiven : ∀ e x, given e = some x → ∃ n : Int, x = .int n) {x : Number}
    (h : inferred? given e = some x) : ∃ n : Int, x = .int n := by
  obtain ⟨-, y, hy, hbeyond⟩ := inferred?_eq_some_iff.mp h
  obtain ⟨n, rfl⟩ := hgiven _ _ hy
  rw [beyond?_int] at hbeyond
  split_ifs at hbeyond <;> exact ⟨_, (Option.some.inj hbeyond).symm⟩

end Edge

theorem Overrides.Integral.exists_added {o : Overrides} (ho : o.Integral) :
    ∃ added : List (Edge × Int),
      o.adjusted.entries = o.entries ++ added.map (fun a => Setting.edge a.1 (.int a.2)) ∧
      (added.map (·.1.axis)).Nodup := by
  obtain ⟨added, hadded⟩ : Edge.inferred o.edge? ∈
      Set.range (List.map fun a : Edge × Int => (a.1, Number.int a.2)) := by
    rw [Set.range_list_map]
    rintro ⟨e, x⟩ ha
    obtain ⟨n, rfl⟩ := Edge.inferred?_int ho (Edge.mem_inferred.mp ha)
    exact ⟨(e, n), rfl⟩
  refine ⟨added, ?_, ?_⟩
  · rw [entries_adjusted, ← hadded, List.map_map]
    rfl
  · have hnodup := Edge.nodup_axes_inferred o.edge?
    rw [← hadded, List.map_map] at hnodup
    exact hnodup

namespace Settings

variable {o : Overrides} {e : Edge} {x : Number}

def edge (s : Settings) : Edge → Number
  | .left => s.left
  | .right => s.right
  | .bottom => s.bottom
  | .top => s.top

theorem get_edge (s : Settings) (e : Edge) : s.get (.edge e) = .edge e (s.edge e) := by
  cases e <;> rfl

theorem edge_default (e : Edge) : default.edge e = .int e.default := by
  cases e <;> rfl

theorem edge_ofOverrides (o : Overrides) (e : Edge) :
    (ofOverrides o).edge e = (o.edge? e).getD (.int e.default) := by
  have h := get_merged default o (.edge e)
  rw [← ofOverrides, get_edge, get_edge, edge_default, Overrides.get?_edge] at h
  cases hedge : o.edge? e with
  | none =>
    rw [hedge] at h
    exact (Setting.edge.inj h).2
  | some x =>
    rw [hedge] at h
    exact (Setting.edge.inj h).2

theorem edge_of_given (h : o.edge? e = some x) : (ofOverrides o.adjusted).edge e = x := by
  rw [edge_ofOverrides, Overrides.edge?_adjusted, h]
  rfl

theorem edge_of_opposite (h : o.edge? e = none) (hopposite : o.edge? e.opposite = some x) :
    (ofOverrides o.adjusted).edge e = (e.beyond? x).getD (.int e.default) := by
  have hinferred : Edge.inferred? o.edge? e = e.beyond? x := by
    rw [Edge.inferred?, h, hopposite]
  rw [edge_ofOverrides, Overrides.edge?_adjusted, h, Option.none_or, hinferred]

theorem edge_of_none (h : o.edge? e = none) (hopposite : o.edge? e.opposite = none) :
    (ofOverrides o.adjusted).edge e = .int e.default := by
  have hinferred : Edge.inferred? o.edge? e = none := by
    rw [Edge.inferred?, h, hopposite]
  rw [edge_ofOverrides, Overrides.edge?_adjusted, h, Option.none_or, hinferred]
  rfl

end Settings

end GraphBlock
