import GraphBlock.Text.Character

/-!
Closed vocabularies. A token names a member when the two agree in upper case; what a member stands
for in output is its value.
-/

namespace GraphBlock

class Vocabulary (α : Type) where
  title : Text
  members : List α
  name : α → Text
  value : α → Text

namespace Vocabulary

variable {α : Type} [Vocabulary α]

def named? (token : Text) : Option α :=
  members.find? fun m => name m == Text.upper token

theorem name_eq_of_named? {token : Text} {m : α} (h : named? token = some m) :
    name m = Text.upper token := by
  have hname := List.find?_some h
  exact beq_iff_eq.mp hname

def listing (α : Type) [Vocabulary α] : Text :=
  List.intercalate ", ".toList ((members (α := α)).map fun m => Text.lower (name m))

end Vocabulary

inductive DegreeMode
  | radians
  | degrees
  deriving DecidableEq, Repr

instance : Vocabulary DegreeMode where
  title := "DegreeMode"
  members := [.radians, .degrees]
  name
    | .radians => "RADIANS"
    | .degrees => "DEGREES"
  value
    | .radians => "RADIANS"
    | .degrees => "DEGREES"

inductive CacheLocation
  | memory
  | filesystem
  deriving DecidableEq, Repr

instance : Vocabulary CacheLocation where
  title := "CacheLocation"
  members := [.memory, .filesystem]
  name
    | .memory => "MEMORY"
    | .filesystem => "FILESYSTEM"
  value
    | .memory => "Memory"
    | .filesystem => "Filesystem"

end GraphBlock
