import GraphBlock.Algebra.Latex.Chart
import GraphBlock.Algebra.Printer

/-!
An algebra system to run the library with: formulas that can be read in exactly one way and state
something, written by the printer. The second backend is not installed.
-/

namespace GraphBlock.Algebra

namespace Latex

inductive Reading
  | formula (f : Formula)
  | relation (r : Relation) (left right : Formula)
  deriving Repr

def Reading.statement? : Reading → Option Statement
  | formula f => f.expr?.map .value
  | relation r left right => do r.state? (← left.expr?) (← right.expr?)

namespace Reading

def toEnd (cells : Chart) (k : Nat) : List Formula :=
  ((cells[k]?.map Cell.sums).getD []).filterMap fun (n, f) =>
    if cells[k + n]?.any (·.lexeme.isEnd) then some f else none

def all (t : Text) : List Reading :=
  let cells := chart t
  let relations := ((cells[0]?.map Cell.sums).getD []).flatMap fun (k, left) =>
    ((cells[k]?.map (·.lexeme.terminals)).getD []).flatMap fun (n, x) =>
      match x with
      | .relation r => (toEnd cells (k + n)).map (relation r left)
      | _ => []
  (toEnd cells 0).map formula ++ relations

def ofText? (t : Text) : Option Reading :=
  match all t with
  | [r] => some r
  | _ => none

end Reading

end Latex

def tree? (tex : Text) : Option Tree := do
  return (← (← Latex.Reading.ofText? tex).statement?).toTree

def system : GraphBlock.Latex.System signature where
  lark tex := match tree? tex with
    | some e => .ok (.expression e)
    | none => .error ⟨"LaTeXParsingError", "not a formula"⟩
  antlr _ := .error ⟨"ImportError", "antlr4 is not installed"⟩
  printer := printer

end GraphBlock.Algebra
