import GraphBlock.Style
import GraphBlock.Color
import GraphBlock.Value.Basic

namespace GraphBlock

inductive Tag
  | hidden
  | style (style : Style)
  | color (color : Color)
  | ownLabel
  | label (text : Text)
  | restriction (text : Text)
  deriving DecidableEq, Repr

namespace Tag

def labelText (segment : Text) : Text :=
  match Text.breakAt? ':' segment with
  | some (_, t) => Text.trim t
  | none => []

def ofText (segment : Text) : Tag :=
  let upper := Text.upper segment
  if upper = "HIDDEN".toList then hidden
  else match Style.named? segment with
    | some s => style s
    | none =>
      match Color.parse? segment with
      | some c => color c
      | none =>
        if upper = "LABEL".toList then ownLabel
        else if "LABEL:".toList.isPrefixOf upper then label (labelText segment)
        else restriction segment

end Tag

structure Equation where
  expression : Text
  restrictions : Option (List Text)
  style : Option Style
  color : Option Color
  hidden : Option Bool
  /-- The empty label stands for the expression itself. -/
  label : Option Text
  deriving DecidableEq, Repr

namespace Equation

def ofExpression (expression : Text) : Equation := ⟨expression, none, none, none, none, none⟩

def toRecord (e : Equation) : List (Text × Value) :=
  [("equation".toList, Value.text e.expression)] ++
    e.restrictions.toList.map (fun rs => ("restrictions".toList, Value.list (rs.map Value.text))) ++
    e.style.toList.map (fun s => ("style".toList, Value.text s.value)) ++
    e.color.toList.map (fun c => ("color".toList, Value.text c.value)) ++
    e.hidden.toList.map (fun b => ("hidden".toList, Value.bool b)) ++
    e.label.toList.map (fun t => ("label".toList, Value.text t))

def toValue (e : Equation) : Value := .record (e.toRecord.map fun (k, v) => (.text k, v))

def painted (default : Option Color) (e : Equation) : Equation :=
  { e with color := e.color.or default }

end Equation

end GraphBlock
