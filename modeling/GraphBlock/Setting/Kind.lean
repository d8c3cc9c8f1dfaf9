import GraphBlock.Error
import GraphBlock.Number.Decimal
import GraphBlock.Value.Basic

namespace GraphBlock

inductive Kind
  | number
  | integer
  | flag
  | degreeMode
  | color
  deriving DecidableEq, Repr

namespace Kind

def required (field : Text) : Option Text → Except GraphError Text
  | none | some [] => .error (.missingValue field)
  | some t => .ok t

def readNumber (field : Text) (value : Option Text) : Except GraphError Binary64 := do
  let t ← required field value
  match Binary64.read? t with
  | some x => if x.isFinite then .ok x else .error (.notNumber field t)
  | none => .error (.notNumber field t)

def readInteger (field : Text) (value : Option Text) : Except GraphError Int := do
  let x ← readNumber field value
  match (x.add .half).floor? with
  | some n => .ok n
  | none => .error (.notNumber field (value.getD []))

/-- A key without a value switches the flag on. -/
def readFlag (field : Text) : Option Text → Except GraphError Bool
  | none | some [] => .ok true
  | some t =>
    if Text.lower t = "true".toList then .ok true
    else if Text.lower t = "false".toList then .ok false
    else .error (.notFlag field)

def readDegreeMode (field : Text) (value : Option Text) : Except GraphError DegreeMode := do
  let t ← required field value
  match Vocabulary.named? t with
  | some m => .ok m
  | none => .error (.notDegreeMode field)

def readColor (field : Text) (value : Option Text) : Except GraphError Color := do
  let t ← required field value
  match Color.parse? t with
  | some c => .ok c
  | none => .error (.notColor field)

end Kind

def Color.toValue : Color → Value
  | .named c => .member (.color c)
  | .code t => .text t

namespace Kind

def read (kind : Kind) (field : Text) (value : Option Text) : Except GraphError Value :=
  match kind with
  | number => (readNumber field value).map .float
  | integer => (readInteger field value).map .int
  | flag => (readFlag field value).map .bool
  | degreeMode => (readDegreeMode field value).map fun m => .member (.degree m)
  | color => (readColor field value).map Color.toValue

def name : Kind → Text
  | number => "number"
  | integer => "integer"
  | flag => "boolean"
  | degreeMode => "enum"
  | color => "color"

def named? (t : Text) : Option Kind :=
  [number, integer, flag, degreeMode, color].find? (·.name == t)

/-- Reading by the name of a kind can also fail because no kind has that name. -/
inductive ReadError
  | unknownKind (kind field : Text)
  | graph (error : GraphError)
  deriving DecidableEq, Repr

def ReadError.message : ReadError → Text
  | unknownKind kind field =>
    "Got unrecognized field type " ++ Text.quoted kind ++ " for field '" ++ field ++
      "', this is a bug."
  | graph error => error.message

def readNamed (kind field : Text) (value : Option Text) : Except ReadError Value :=
  match named? kind with
  | some k => (k.read field value).mapError .graph
  | none => .error (.unknownKind kind field)

end Kind

end GraphBlock
