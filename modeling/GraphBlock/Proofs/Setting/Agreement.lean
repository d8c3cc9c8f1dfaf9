import GraphBlock.Proofs.Number.Place
import GraphBlock.Proofs.Setting.Overrides
import GraphBlock.Setting.Settings
import Mathlib.Data.List.Forall2

namespace GraphBlock

namespace Setting

inductive Same : Setting → Setting → Prop
  | size (d : Dimension) {m n : Number} (h : m.Same n) : Same (size d m) (size d n)
  | edge (e : Edge) {x y : Number} (h : x.Same y) : Same (edge e x) (edge e y)
  | refl (s : Setting) : Same s s

variable {s t : Setting} {l m : List Setting}

theorem Same.key_eq (h : s.Same t) : s.key = t.key := by
  cases h <;> rfl

theorem same_size_iff {d : Dimension} {a b : Number} :
    (size d a).Same (size d b) ↔ a.Same b := by
  constructor
  · intro h
    cases h with
    | size _ h => exact h
    | refl _ => rfl
  · exact .size d

theorem same_edge_iff {e : Edge} {x y : Number} : (edge e x).Same (edge e y) ↔ x.Same y := by
  constructor
  · intro h
    cases h with
    | edge _ h => exact h
    | refl _ => rfl
  · exact .edge e

theorem forall₂_put (hst : s.Same t) (hlm : List.Forall₂ Same l m) :
    List.Forall₂ Same (put s l) (put t m) := by
  induction hlm with
  | nil => exact .cons hst .nil
  | cons hab hlm ih =>
    next a b l m =>
    by_cases hkey : a.key = s.key
    · have hkey' : b.key = t.key := by rw [← hab.key_eq, hkey, hst.key_eq]
      rw [put, put, if_pos hkey, if_pos hkey']
      exact .cons hst hlm
    · have hkey' : b.key ≠ t.key := by
        rw [← hab.key_eq, ← hst.key_eq]
        exact hkey
      rw [put, put, if_neg hkey, if_neg hkey']
      exact .cons hab ih

theorem forall₂_find? {k : Key} (hlm : List.Forall₂ Same l m) :
    Option.Rel Same (l.find? (·.key = k)) (m.find? (·.key = k)) := by
  induction hlm with
  | nil => exact .none
  | cons hab hlm ih =>
    next a b l m =>
    by_cases hkey : a.key = k
    · have hkey' : b.key = k := hab.key_eq ▸ hkey
      rw [List.find?_cons_of_pos (by simpa using hkey),
        List.find?_cons_of_pos (by simpa using hkey')]
      exact .some hab
    · have hkey' : ¬ b.key = k := hab.key_eq ▸ hkey
      rw [List.find?_cons_of_neg (by simpa using hkey),
        List.find?_cons_of_neg (by simpa using hkey')]
      exact ih

end Setting

namespace Overrides

variable {o p : Overrides} {l m : List Setting}

def Same (o p : Overrides) : Prop := List.Forall₂ Setting.Same o.entries p.entries

/-- Edges whose sums do not depend on how they are given. -/
def Exact (o : Overrides) : Prop := ∀ e x, Setting.edge e x ∈ o.entries → x.Exact

theorem Same.refl (o : Overrides) : o.Same o :=
  List.forall₂_same.mpr fun s _ => .refl s

theorem Same.putAll (h : o.Same p) (hlm : List.Forall₂ Setting.Same l m) :
    (o.putAll l).Same (p.putAll m) := by
  induction hlm generalizing o p with
  | nil => exact h
  | cons hst _ ih => exact ih (Setting.forall₂_put hst h)

theorem Same.edge? (h : o.Same p) (e : Edge) : Option.Rel Number.Same (o.edge? e) (p.edge? e) := by
  have hfind := Setting.forall₂_find? (k := .edge e) h
  rw [Overrides.edge?, Overrides.edge?, get?, get?]
  generalize o.entries.find? (·.key = .edge e) = a at hfind ⊢
  generalize p.entries.find? (·.key = .edge e) = b at hfind ⊢
  cases hfind with
  | none => exact .none
  | @some s t hst =>
    cases hst with
    | size d h => exact .none
    | edge e h => exact .some h
    | refl =>
      cases s with
      | edge e x => exact .some rfl
      | size d n => exact .none
      | flag f on => exact .none
      | degreeMode mode => exact .none
      | defaultColor color => exact .none

theorem Exact.edge? (h : o.Exact) {e : Edge} {x : Number} (hx : o.edge? e = some x) : x.Exact := by
  obtain ⟨d, hd⟩ := mem_of_edge? hx
  exact h d x hd

end Overrides

namespace Edge

variable {given other : Edge → Option Number} {e : Edge}

theorem span_lt (e : Edge) : e.span.natAbs < 2 ^ 50 := by
  cases e <;> decide

theorem beyond?_rel {x y : Number} (h : x.Same y) (hx : x.Exact) (hy : y.Exact) :
    Option.Rel Number.Same (e.beyond? x) (e.beyond? y) := by
  have hspan := e.span_lt
  rw [beyond?, beyond?]
  split
  · rw [(Number.Same.refl (.int e.default)).le_eq h]
    split
    · exact .some (h.add_int hx hy hspan)
    · exact .none
  · rw [h.le_eq (Number.Same.refl (.int e.default))]
    split
    · exact .some (h.add_int hx hy (by rwa [Int.natAbs_neg]))
    · exact .none

theorem inferred?_rel (h : ∀ e, Option.Rel Number.Same (given e) (other e))
    (hgiven : ∀ e x, given e = some x → x.Exact) (hother : ∀ e x, other e = some x → x.Exact) :
    Option.Rel Number.Same (inferred? given e) (inferred? other e) := by
  have he := h e
  have hopposite := h e.opposite
  have hx := hgiven e.opposite
  have hy := hother e.opposite
  rw [inferred?, inferred?]
  generalize given e = a at he ⊢
  generalize other e = b at he ⊢
  generalize given e.opposite = c at hopposite hx ⊢
  generalize other e.opposite = d at hopposite hy ⊢
  cases he with
  | some _ => exact .none
  | none =>
    cases hopposite with
    | none => exact .none
    | some hxy => exact beyond?_rel hxy (hx _ rfl) (hy _ rfl)

end Edge

namespace Overrides

variable {o p : Overrides}

theorem Same.adjusted (h : o.Same p) (ho : o.Exact) (hp : p.Exact) :
    o.adjusted.Same p.adjusted := by
  apply h.putAll
  have hrel : ∀ e, Option.Rel Number.Same (Edge.inferred? o.edge? e) (Edge.inferred? p.edge? e) :=
    fun e => Edge.inferred?_rel h.edge? (fun _ _ => ho.edge?) (fun _ _ => hp.edge?)
  rw [Edge.inferred, Edge.inferred]
  induction [Edge.right, .left, .top, .bottom] with
  | nil => exact .nil
  | cons e es ih =>
    have he := hrel e
    rw [List.filterMap_cons, List.filterMap_cons]
    generalize Edge.inferred? o.edge? e = a at he ⊢
    generalize Edge.inferred? p.edge? e = b at he ⊢
    cases he with
    | none => exact ih
    | some hxy => exact .cons (.edge e hxy) ih

end Overrides

namespace Settings

variable {s t : Settings} {o p : Overrides}

def Same (s t : Settings) : Prop := ∀ k, (s.get k).Same (t.get k)

theorem Same.set (h : s.Same t) {a b : Setting} (hab : a.Same b) : (s.set a).Same (t.set b) := by
  intro k
  rw [get_set, get_set, hab.key_eq]
  split
  · exact hab
  · exact h k

theorem same_ofOverrides (h : o.Same p) : (ofOverrides o).Same (ofOverrides p) := by
  have hfold : ∀ {l m : List Setting} {s t : Settings}, List.Forall₂ Setting.Same l m → s.Same t →
      (l.foldl Settings.set s).Same (m.foldl Settings.set t) := by
    intro l m s t hlm
    induction hlm generalizing s t with
    | nil => exact id
    | cons hab _ ih => exact fun hst => ih (hst.set hab)
  exact hfold h fun k => .refl _

theorem Same.width (h : s.Same t) : s.width.Same t.width :=
  Setting.same_size_iff.mp (h (.size .width))

theorem Same.height (h : s.Same t) : s.height.Same t.height :=
  Setting.same_size_iff.mp (h (.size .height))

theorem Same.left (h : s.Same t) : s.left.Same t.left := Setting.same_edge_iff.mp (h (.edge .left))

theorem Same.right (h : s.Same t) : s.right.Same t.right :=
  Setting.same_edge_iff.mp (h (.edge .right))

theorem Same.bottom (h : s.Same t) : s.bottom.Same t.bottom :=
  Setting.same_edge_iff.mp (h (.edge .bottom))

theorem Same.top (h : s.Same t) : s.top.Same t.top := Setting.same_edge_iff.mp (h (.edge .top))

theorem Same.defaultColor (h : s.Same t) : s.defaultColor = t.defaultColor := by
  have hcolor : (Setting.defaultColor s.defaultColor).Same (.defaultColor t.defaultColor) :=
    h .defaultColor
  generalize s.defaultColor = a at hcolor ⊢
  generalize t.defaultColor = b at hcolor ⊢
  cases hcolor
  rfl

theorem Same.validate_eq_ok_iff (h : s.Same t) : s.validate = .ok () ↔ t.validate = .ok () := by
  have hmax := Number.Same.refl (.int maxSize)
  rw [validate, validate, hmax.lt_eq h.width, hmax.lt_eq h.height, h.right.le_eq h.left,
    h.top.le_eq h.bottom]
  split
  · simp
  · split
    · simp
    · split <;> simp

end Settings

end GraphBlock
