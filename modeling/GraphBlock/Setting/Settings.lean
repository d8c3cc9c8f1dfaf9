import GraphBlock.Setting.Bounds

namespace GraphBlock

structure Settings where
  width : Number
  height : Number
  left : Number
  right : Number
  bottom : Number
  top : Number
  grid : Bool
  lock : Bool
  hideAxisNumbers : Bool
  degreeMode : DegreeMode
  defaultColor : Option Color
  deriving DecidableEq, Repr

namespace Settings

def default : Settings where
  width := .int 600
  height := .int 400
  left := .int Edge.left.default
  right := .int Edge.right.default
  bottom := .int Edge.bottom.default
  top := .int Edge.top.default
  grid := true
  lock := false
  hideAxisNumbers := false
  degreeMode := .radians
  defaultColor := none

def set (s : Settings) : Setting → Settings
  | .size .width n => { s with width := n }
  | .size .height n => { s with height := n }
  | .edge .left x => { s with left := x }
  | .edge .right x => { s with right := x }
  | .edge .bottom x => { s with bottom := x }
  | .edge .top x => { s with top := x }
  | .flag .grid b => { s with grid := b }
  | .flag .lock b => { s with lock := b }
  | .flag .hideAxisNumbers b => { s with hideAxisNumbers := b }
  | .degreeMode m => { s with degreeMode := m }
  | .defaultColor c => { s with defaultColor := c }

def get (s : Settings) : Key → Setting
  | .size .width => .size .width s.width
  | .size .height => .size .height s.height
  | .edge .left => .edge .left s.left
  | .edge .right => .edge .right s.right
  | .edge .bottom => .edge .bottom s.bottom
  | .edge .top => .edge .top s.top
  | .flag .grid => .flag .grid s.grid
  | .flag .lock => .flag .lock s.lock
  | .flag .hideAxisNumbers => .flag .hideAxisNumbers s.hideAxisNumbers
  | .degreeMode => .degreeMode s.degreeMode
  | .defaultColor => .defaultColor s.defaultColor

@[simp] theorem key_get (s : Settings) (k : Key) : (s.get k).key = k := by
  rcases k with ⟨⟨⟩⟩ | ⟨⟨⟩⟩ | ⟨⟨⟩⟩ | _ | _ <;> rfl

@[simp] theorem get_set (s : Settings) (t : Setting) (k : Key) :
    (s.set t).get k = if t.key = k then t else s.get k := by
  rcases t with ⟨⟨⟩, _⟩ | ⟨⟨⟩, _⟩ | ⟨⟨⟩, _⟩ | _ | _ <;>
    rcases k with ⟨⟨⟩⟩ | ⟨⟨⟩⟩ | ⟨⟨⟩⟩ | _ | _ <;> simp [set, get, Setting.key]

def merged (s : Settings) (o : Overrides) : Settings := o.entries.foldl set s

def ofOverrides (o : Overrides) : Settings := default.merged o

def toList (s : Settings) : List Setting := Key.all.map s.get

/-- Checks the largest size, then the order of the edges on each axis. -/
def validate (s : Settings) : Except GraphError Unit :=
  if (Number.int maxSize).lt s.width || (Number.int maxSize).lt s.height then
    .error (.tooLarge s.width s.height)
  else if s.right.le s.left then .error (.rightNotAboveLeft s.right s.left)
  else if s.top.le s.bottom then .error (.topNotAboveBottom s.top s.bottom)
  else .ok ()

theorem validate_default : default.validate = .ok () := by
  simp [validate, default, maxSize, Edge.default]

end Settings

end GraphBlock
