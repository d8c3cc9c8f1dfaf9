import GraphBlock.Text.Basic

namespace GraphBlock

inductive Dimension
  | width
  | height
  deriving DecidableEq, Repr

inductive Edge
  | left
  | right
  | bottom
  | top
  deriving DecidableEq, Repr

inductive Flag
  | grid
  | lock
  | hideAxisNumbers
  deriving DecidableEq, Repr

inductive Key
  | size (dimension : Dimension)
  | edge (edge : Edge)
  | flag (flag : Flag)
  | degreeMode
  | defaultColor
  deriving DecidableEq, Repr

namespace Edge

def opposite : Edge → Edge
  | left => right
  | right => left
  | bottom => top
  | top => bottom

def isUpper : Edge → Bool
  | left | bottom => false
  | right | top => true

def name : Edge → Text
  | left => "left"
  | right => "right"
  | bottom => "bottom"
  | top => "top"

end Edge

namespace Key

def name : Key → Text
  | size .width => "width"
  | size .height => "height"
  | edge e => e.name
  | flag .grid => "grid"
  | flag .lock => "lock"
  | flag .hideAxisNumbers => "hideAxisNumbers"
  | degreeMode => "degreeMode"
  | defaultColor => "defaultColor"

def all : List Key :=
  [size .width, size .height, edge .left, edge .right, edge .bottom, edge .top,
    flag .grid, flag .lock, flag .hideAxisNumbers, degreeMode, defaultColor]

def named? (t : Text) : Option Key := all.find? (·.name == t)

theorem mem_all (k : Key) : k ∈ all := by
  rcases k with ⟨⟨⟩⟩ | ⟨⟨⟩⟩ | ⟨⟨⟩⟩ | _ | _ <;> decide

theorem name_injective {j k : Key} (h : j.name = k.name) : j = k := by
  have : ∀ j ∈ all, ∀ k ∈ all, j.name = k.name → j = k := by decide
  exact this j (mem_all j) k (mem_all k) h

theorem named?_eq_some_iff {t : Text} {k : Key} : named? t = some k ↔ k.name = t := by
  constructor
  · intro h
    simpa using List.find?_some h
  · rintro rfl
    have : ∀ k ∈ all, named? k.name = some k := by decide
    exact this k (mem_all k)

end Key

end GraphBlock
