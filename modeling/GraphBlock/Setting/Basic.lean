import GraphBlock.Setting.Key
import GraphBlock.Setting.Kind
import GraphBlock.Value.Written

namespace GraphBlock

inductive Setting
  | size (dimension : Dimension) (n : Number)
  | edge (edge : Edge) (x : Number)
  | flag (flag : Flag) (on : Bool)
  | degreeMode (mode : DegreeMode)
  | defaultColor (color : Option Color)
  deriving DecidableEq, Repr

def Key.kind : Key → Kind
  | size _ => .integer
  | edge _ => .number
  | flag _ => .flag
  | degreeMode => .degreeMode
  | defaultColor => .color

namespace Setting

def key : Setting → Key
  | size d _ => .size d
  | edge e _ => .edge e
  | flag f _ => .flag f
  | degreeMode _ => .degreeMode
  | defaultColor _ => .defaultColor

def toValue : Setting → Value
  | size _ n => .ofNumber n
  | edge _ x => .ofNumber x
  | flag _ b => .bool b
  | degreeMode m => .member (.degree m)
  | defaultColor none => .null
  | defaultColor (some c) => c.toValue

def read (k : Key) (value : Option Text) : Except GraphError Setting :=
  match k with
  | .size d => (Kind.readInteger k.name value).map fun n => size d (.int n)
  | .edge e => (Kind.readNumber k.name value).map fun x => edge e (.float x)
  | .flag f => (Kind.readFlag k.name value).map (flag f)
  | .degreeMode => (Kind.readDegreeMode k.name value).map degreeMode
  | .defaultColor => (Kind.readColor k.name value).map fun c => defaultColor (some c)

/-- A setting whose value a host supplies. A value of another kind fails like a text of none. -/
def ofValue (k : Key) (v : Value) : Except GraphError Setting :=
  match k, v with
  | .size d, .int n => .ok (size d (.int n))
  | .size d, .float x => .ok (size d (.float x))
  | .edge e, .int n => .ok (edge e (.int n))
  | .edge e, .float x => .ok (edge e (.float x))
  | .flag f, .bool b => .ok (flag f b)
  | .degreeMode, .member (.degree m) => .ok (degreeMode m)
  | .defaultColor, .null => .ok (defaultColor none)
  | .defaultColor, .member (.color c) => .ok (defaultColor (some (.named c)))
  | .defaultColor, .text t => .ok (defaultColor (some (.code t)))
  | .size _, v => .error (.notNumber k.name v.plain)
  | .edge _, v => .error (.notNumber k.name v.plain)
  | .flag _, _ => .error (.notFlag k.name)
  | .degreeMode, _ => .error (.notDegreeMode k.name)
  | .defaultColor, _ => .error (.notColor k.name)

theorem ofValue_toValue (s : Setting) : ofValue s.key s.toValue = .ok s := by
  cases s with
  | size d n => cases n <;> rfl
  | edge e x => cases x <;> rfl
  | flag f b => rfl
  | degreeMode m => rfl
  | defaultColor c =>
    match c with
    | none => rfl
    | some (.named _) => rfl
    | some (.code _) => rfl

theorem key_of_read {k : Key} {value : Option Text} {s : Setting} (h : read k value = .ok s) :
    s.key = k := by
  cases k <;> simp only [read, Except.map] at h <;> split at h <;> cases h <;> rfl

end Setting

end GraphBlock
