import GraphBlock.Algebra.Nature
import GraphBlock.Algebra.Order

/-!
The operations on expressions, as far as they are already worked out. Each operation is defined in
terms of the others, so a step takes the operations below it and gives those of the next level.
-/

namespace GraphBlock.Algebra

structure Operations where
  add : List Expr → Expr
  mul : List Expr → Expr
  pow : Expr → Expr → Expr
  apply : Function → Expr → Expr

namespace Operations

def unevaluated : Operations where
  add := Expr.ofTerms
  mul := fun fs => Expr.ofFactors (Expr.sortFactors fs)
  pow := .power
  apply := fun f e => .apply f [e]

variable (ops : Operations)

def sub (a b : Expr) : Expr := ops.add [a, b.neg]

def inv (e : Expr) : Expr := ops.pow e (.int (-1))

def div (a b : Expr) : Expr := ops.mul [a, ops.inv b]

def sqrt (e : Expr) : Expr := ops.pow e .half

end Operations

end GraphBlock.Algebra
