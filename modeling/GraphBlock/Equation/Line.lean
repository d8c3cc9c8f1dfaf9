import GraphBlock.Equation.Basic
import GraphBlock.Error
import GraphBlock.Hint
import GraphBlock.Text.Pieces

/-!
An equation line: segments between bars, the first of which is the expression and the others tags.
How a restriction earns a hint is left to the caller.
-/

namespace GraphBlock

/-- An equation together with the hint of its last restriction that earned one. -/
structure EquationLine where
  equation : Equation
  hint : Option Hint
  deriving DecidableEq, Repr

namespace EquationLine

variable (advise : Text → Option Hint)

/-- Adds a tag, given as its segment. Only `hidden` and restrictions may be repeated. -/
def add (l : EquationLine) (segment : Text) : Except GraphError EquationLine :=
  match Tag.ofText segment with
  | .hidden => .ok { l with equation := { l.equation with hidden := some true } }
  | .style s =>
    match l.equation.style with
    | some first => .error (.duplicateStyle first segment)
    | none => .ok { l with equation := { l.equation with style := some s } }
  | .color c =>
    if l.equation.color.isSome then .error .duplicateColor
    else .ok { l with equation := { l.equation with color := some c } }
  | .ownLabel =>
    if l.equation.label.isSome then .error .duplicateLabel
    else .ok { l with equation := { l.equation with label := some [] } }
  | .label t =>
    if l.equation.label.isSome then .error .duplicateLabel
    else if t.isEmpty then .error .emptyLabel
    else .ok { l with equation := { l.equation with label := some t } }
  | .restriction t =>
    .ok ⟨{ l.equation with restrictions := some (l.equation.restrictions.getD [] ++ [t]) },
      (advise t).or l.hint⟩

def segments (line : Text) : List Text := Text.parts (· == '|') line

def parse (line : Text) : Except GraphError EquationLine :=
  match segments line with
  | [] => .error (.noExpression line)
  | expression :: tags => tags.foldlM (add advise) ⟨.ofExpression expression, none⟩

end EquationLine

def Color.written : Color → Text
  | named c => Vocabulary.name c
  | code t => t

namespace Tag

def written : Tag → Text
  | hidden => "hidden"
  | style s => s.name
  | color c => c.written
  | ownLabel => "label"
  | label t => "label:" ++ t
  | restriction t => t

def ofLabel (t : Text) : Tag := if t.isEmpty then ownLabel else label t

end Tag

def Equation.tags (e : Equation) : List Tag :=
  (e.restrictions.getD []).map .restriction ++ e.style.toList.map .style ++
    e.color.toList.map .color ++ (if e.hidden = some true then [.hidden] else []) ++
    e.label.toList.map Tag.ofLabel

namespace EquationLine

def write (expression : Text) (tags : List Tag) : Text :=
  expression ++ tags.flatMap fun tag => '|' :: tag.written

end EquationLine

end GraphBlock
