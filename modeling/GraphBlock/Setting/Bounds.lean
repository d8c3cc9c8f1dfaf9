import GraphBlock.Setting.Overrides

/-!
Bounds inference. Where an author gives one edge of an axis, and gives it beyond the default of the
other, that other edge is placed one default span away.
-/

namespace GraphBlock

namespace Edge

def default : Edge → Int
  | left => -10
  | right => 10
  | bottom => -7
  | top => 7

def span (e : Edge) : Int := e.default.natAbs + e.opposite.default.natAbs

/-- The place of an edge that is not given, when its opposite stands at `x` and that is no longer
on the right side of the edge's default. -/
def beyond? (e : Edge) (x : Number) : Option Number :=
  if e.isUpper then
    if (Number.int e.default).le x then some (x.add (.int e.span)) else none
  else
    if x.le (.int e.default) then some (x.add (.int (-e.span))) else none

def inferred? (given : Edge → Option Number) (e : Edge) : Option Number :=
  match given e, given e.opposite with
  | none, some x => e.beyond? x
  | _, _ => none

/-- The edges to be added to those given, in the order in which they are added. -/
def inferred (given : Edge → Option Number) : List (Edge × Number) :=
  [right, left, top, bottom].filterMap fun e => (inferred? given e).map (e, ·)

end Edge

def Overrides.adjusted (o : Overrides) : Overrides :=
  o.putAll ((Edge.inferred o.edge?).map fun (e, x) => .edge e x)

def adjustedRecord (record : List (Text × Value)) : List (Text × Value) :=
  let given (e : Edge) : Option Number :=
    (record.find? (·.1 == e.name)).bind fun entry => entry.2.number?
  record ++ (Edge.inferred given).map fun (e, x) => (e.name, .ofNumber x)

end GraphBlock
