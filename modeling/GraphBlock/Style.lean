import GraphBlock.Vocabulary

namespace GraphBlock

inductive LineStyle
  | solid
  | dashed
  | dotted
  deriving DecidableEq, Repr

inductive PointStyle
  | point
  | opened
  | cross
  deriving DecidableEq, Repr

instance : Vocabulary LineStyle where
  title := "LineStyle"
  members := [.solid, .dashed, .dotted]
  name
    | .solid => "SOLID"
    | .dashed => "DASHED"
    | .dotted => "DOTTED"
  value
    | .solid => "SOLID"
    | .dashed => "DASHED"
    | .dotted => "DOTTED"

instance : Vocabulary PointStyle where
  title := "PointStyle"
  members := [.point, .opened, .cross]
  name
    | .point => "POINT"
    | .opened => "OPEN"
    | .cross => "CROSS"
  value
    | .point => "POINT"
    | .opened => "OPEN"
    | .cross => "CROSS"

inductive Style
  | line (style : LineStyle)
  | point (style : PointStyle)
  deriving DecidableEq, Repr

namespace Style

def named? (token : Text) : Option Style :=
  ((Vocabulary.named? token).map line).or ((Vocabulary.named? token).map point)

def value : Style → Text
  | line s => Vocabulary.value s
  | point s => Vocabulary.value s

def name : Style → Text
  | line s => Vocabulary.name s
  | point s => Vocabulary.name s

theorem name_eq_of_named? {token : Text} {s : Style} (h : named? token = some s) :
    s.name = Text.upper token := by
  rcases Option.or_eq_some_iff.mp h with h | ⟨-, h⟩
  · obtain ⟨m, hm, hs⟩ := Option.map_eq_some_iff.mp h
    rw [← hs]
    exact Vocabulary.name_eq_of_named? hm
  · obtain ⟨m, hm, hs⟩ := Option.map_eq_some_iff.mp h
    rw [← hs]
    exact Vocabulary.name_eq_of_named? hm

end Style

end GraphBlock
