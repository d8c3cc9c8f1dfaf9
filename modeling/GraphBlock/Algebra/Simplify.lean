import GraphBlock.Algebra.Application
import GraphBlock.Algebra.Power.Basic
import GraphBlock.Algebra.Product
import GraphBlock.Algebra.Sum

namespace GraphBlock.Algebra

namespace Operations

def withDepth : Nat → Operations
  | 0 => unevaluated
  | depth + 1 =>
    let below := withDepth depth
    { add := Sum.ofList below
      mul := Product.ofList below
      pow := Power.of below
      apply := Application.of below }

def full : Operations := withDepth 200

end Operations

namespace Expr

def add (a b : Expr) : Expr := Operations.full.add [a, b]
def mul (a b : Expr) : Expr := Operations.full.mul [a, b]
def pow (a b : Expr) : Expr := Operations.full.pow a b
def sub (a b : Expr) : Expr := Operations.full.sub a b
def div (a b : Expr) : Expr := Operations.full.div a b
def applied (f : Function) (x : Expr) : Expr := Operations.full.apply f x
def logarithm (base x : Expr) : Expr := Application.logarithmTo Operations.full base x

end Expr

end GraphBlock.Algebra
