import GraphBlock.Proofs.Setting.Conversion
import GraphBlock.Proofs.Setting.Directives
import GraphBlock.Proofs.Setting.Lookup
import GraphBlock.Proofs.Setting.Spelling

namespace GraphBlock

namespace Binary64

theorem ofRatio_ne_nan (negative : Bool) (num den : Nat) : ofRatio negative num den ≠ nan := by
  rw [ofRatio]
  split <;> simp

theorem add_ne_nan {x y : Binary64} (hx : x ≠ nan) (hy : y.isFinite = true) : x.add y ≠ nan := by
  cases y with
  | infinite => cases hy
  | nan => cases hy
  | finite b n hn =>
    cases x with
    | nan => exact absurd rfl hx
    | infinite a => simp [add]
    | finite a m hm =>
      rw [add]
      split
      · simp [zero]
      · exact ofRatio_ne_nan _ _ _

end Binary64

namespace Number

variable {a b : Number}

def Placed (a : Number) : Prop := a.place?.isSome = true

@[simp] theorem placed_int (n : Int) : (int n).Placed := rfl

theorem placed_float_iff {x : Binary64} : (float x).Placed ↔ x ≠ .nan := by
  cases x with
  | finite => simp [Placed, place?]
  | infinite negative => cases negative <;> simp [Placed, place?]
  | nan => simp [Placed, place?]

theorem Finite.placed (ha : a.Finite) : a.Placed := by
  cases a with
  | int n => exact placed_int n
  | float x =>
    apply placed_float_iff.mpr
    intro hx
    rw [hx] at ha
    cases ha

theorem placed_of_isFinite {x : Binary64} (hx : x.isFinite = true) : (float x).Placed :=
  Finite.placed (a := float x) hx

theorem Placed.add_int (ha : a.Placed) {k : Int} (hk : k.natAbs < 2 ^ 50) :
    (a.add (.int k)).Placed := by
  cases a with
  | int n => rfl
  | float x =>
    have hfinite := Binary64.isFinite_of_units? (Binary64.units?_ofInt (n := k) (by omega))
    exact placed_float_iff.mpr (Binary64.add_ne_nan (placed_float_iff.mp ha) hfinite)

theorem Placed.lt_eq (ha : a.Placed) (hb : b.Placed) : b.lt a = !a.le b := by
  obtain ⟨p, hp⟩ := Option.isSome_iff_exists.mp ha
  obtain ⟨q, hq⟩ := Option.isSome_iff_exists.mp hb
  rw [lt, le, hp, hq]

theorem placed_of_le (h : a.le b = true) : a.Placed ∧ b.Placed := by
  obtain ⟨p, q, ha, hb, -⟩ := le_eq_true_iff.mp h
  rw [Placed, Placed, ha, hb]
  exact ⟨rfl, rfl⟩

theorem placed_of_lt (h : a.lt b = true) : a.Placed ∧ b.Placed := by
  rw [lt] at h
  split at h
  · next p q ha hb =>
    rw [Placed, Placed, ha, hb]
    exact ⟨rfl, rfl⟩
  · cases h

/-- A comparison that fails is the opposite one, or has a side that is not a number. -/
theorem not_le_iff : ¬ a.le b = true ↔ (a.Placed → b.Placed → b.lt a = true) := by
  constructor
  · intro h ha hb
    rw [ha.lt_eq hb, Bool.eq_false_iff.mpr h]
    rfl
  · intro h hle
    obtain ⟨ha, hb⟩ := placed_of_le hle
    have hlt := h ha hb
    rw [ha.lt_eq hb, hle] at hlt
    cases hlt

theorem not_lt_iff : ¬ a.lt b = true ↔ (a.Placed → b.Placed → b.le a = true) := by
  constructor
  · intro h ha hb
    rw [hb.lt_eq ha, Bool.not_eq_true', Bool.not_eq_false] at h
    exact h
  · intro h hlt
    obtain ⟨ha, hb⟩ := placed_of_lt hlt
    rw [hb.lt_eq ha, h ha hb] at hlt
    cases hlt

end Number

def Setting.Placed : Setting → Prop
  | size _ n => n.Placed
  | edge _ x => x.Placed
  | flag _ _ => True
  | degreeMode _ => True
  | defaultColor color => ∀ c, color = some c → c.Readable

theorem Setting.placed_of_read {k : Key} {value : Option Text} {s : Setting}
    (h : read k value = .ok s) : s.Placed := by
  obtain ⟨rfl, hconverts⟩ := read_eq_ok_iff.mp h
  have hadmits := hconverts.admits
  cases s with
  | size d n =>
    cases n with
    | int n => exact Number.placed_int n
    | float x => cases hadmits
  | edge e x =>
    cases x with
    | int n => exact Number.placed_int n
    | float x =>
      cases hadmits with
      | number hx => exact Number.placed_of_isFinite hx
  | flag f on => exact trivial
  | degreeMode mode => exact trivial
  | defaultColor color =>
    rintro c rfl
    cases c with
    | named c => exact trivial
    | code t =>
      cases hadmits with
      | code hcode => exact Color.isCode_eq_true_iff.mpr hcode

theorem Edge.placed_of_beyond? {e : Edge} {x y : Number} (hx : x.Placed)
    (h : e.beyond? x = some y) : y.Placed := by
  have hspan := e.span_lt
  rw [beyond?] at h
  split at h
  · split at h
    · cases h
      exact hx.add_int hspan
    · cases h
  · split at h
    · cases h
      exact hx.add_int (by rwa [Int.natAbs_neg])
    · cases h

namespace Overrides

variable {o : Overrides}

theorem exists_read_of_parse {segment : Option Text} (h : parse segment = .ok o) {s : Setting}
    (hs : s ∈ o.entries) : ∃ value, Setting.read s.key value = .ok s := by
  cases segment with
  | none =>
    cases h
    cases hs
  | some segment =>
    obtain ⟨d, -, hreads⟩ := exists_of_forall₂ (parse_eq_ok_iff.mp h) hs
    exact ⟨_, hreads.read⟩

theorem placed_of_parse {segment : Option Text} (h : parse segment = .ok o) :
    ∀ s ∈ o.entries, s.Placed := by
  intro s hs
  obtain ⟨value, hread⟩ := exists_read_of_parse h hs
  exact Setting.placed_of_read hread

theorem placed_adjusted (ho : ∀ s ∈ o.entries, s.Placed) : ∀ s ∈ o.adjusted.entries, s.Placed := by
  apply forall_putAll _ ho
  intro s hs
  obtain ⟨⟨e, y⟩, hentry, heq⟩ := List.mem_map.mp hs
  obtain ⟨d, -, hd⟩ := List.mem_filterMap.mp hentry
  obtain ⟨z, hz, hentry⟩ := Option.map_eq_some_iff.mp hd
  cases hentry
  rw [← heq]
  rw [Edge.inferred?] at hz
  split at hz
  · next x _ hx =>
    obtain ⟨d, hd⟩ := mem_of_edge? hx
    exact Edge.placed_of_beyond? (ho _ hd) hz
  · cases hz

end Overrides

namespace Settings

variable {s : Settings}

/-- The rules that settings keep, with sizes and edges that can be compared. -/
structure Ordered (s : Settings) : Prop where
  width_le : s.width.le (.int maxSize) = true
  height_le : s.height.le (.int maxSize) = true
  left_lt_right : s.left.lt s.right = true
  bottom_lt_top : s.bottom.lt s.top = true

theorem placed_get {o : Overrides} (ho : ∀ s ∈ o.entries, s.Placed) (k : Key) :
    ((ofOverrides o).get k).Placed := by
  rw [ofOverrides, get_merged]
  cases hget : o.get? k with
  | some s => exact ho s (List.mem_of_find?_eq_some hget)
  | none =>
    rcases k with ⟨⟨⟩⟩ | ⟨⟨⟩⟩ | ⟨⟨⟩⟩ | _ | _ <;>
      simp [default, get, Setting.Placed]

theorem validate_eq_ok_iff : s.validate = .ok () ↔
    (¬ (Number.int maxSize).lt s.width = true ∧ ¬ (Number.int maxSize).lt s.height = true) ∧
      ¬ s.right.le s.left = true ∧ ¬ s.top.le s.bottom = true := by
  rw [validate, ← not_or, ← Bool.or_eq_true]
  split
  · next hsize => simp [hsize]
  · next hsize =>
    split
    · next hhorizontal => simp [hhorizontal]
    · next hhorizontal =>
      split
      · next hvertical => simp [hvertical]
      · next hvertical => exact iff_of_true rfl ⟨hsize, hhorizontal, hvertical⟩

theorem ordered_of_validate (hplaced : ∀ k, (s.get k).Placed) (h : s.validate = .ok ()) :
    s.Ordered := by
  have hmax := Number.placed_int maxSize
  obtain ⟨⟨hwidth, hheight⟩, hhorizontal, hvertical⟩ := validate_eq_ok_iff.mp h
  exact {
    width_le := Number.not_lt_iff.mp hwidth hmax (hplaced (.size .width))
    height_le := Number.not_lt_iff.mp hheight hmax (hplaced (.size .height))
    left_lt_right :=
      Number.not_le_iff.mp hhorizontal (hplaced (.edge .right)) (hplaced (.edge .left))
    bottom_lt_top :=
      Number.not_le_iff.mp hvertical (hplaced (.edge .top)) (hplaced (.edge .bottom)) }

end Settings

end GraphBlock
