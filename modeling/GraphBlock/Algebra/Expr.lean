import GraphBlock.Algebra.Scalar

namespace GraphBlock.Algebra

structure Name where
  text : Text
  star_not_mem : '*' ∉ text
  deriving DecidableEq, Repr

inductive Function
  | sin
  | cos
  | tan
  | asin
  | acos
  | atan
  | exp
  | log
  | abs
  | floor
  | ceiling
  | re
  | derivative
  | named (name : Name)
  deriving DecidableEq, Repr

def Function.name : Function → Text
  | sin => "sin"
  | cos => "cos"
  | tan => "tan"
  | asin => "asin"
  | acos => "acos"
  | atan => "atan"
  | exp => "exp"
  | log => "log"
  | abs => "Abs"
  | floor => "floor"
  | ceiling => "ceiling"
  | re => "re"
  | derivative => "Derivative"
  | named name => name.text

inductive Expr
  | scalar (c : Scalar)
  | symbol (name : Text)
  | imaginary
  | pi
  | euler
  | sum (terms : List Expr)
  | product (factors : List Expr)
  | power (base exponent : Expr)
  | apply (f : Function) (arguments : List Expr)
  deriving Repr, Inhabited

namespace Expr

mutual

def beq : Expr → Expr → Bool
  | scalar a, scalar b => a == b
  | symbol a, symbol b => a == b
  | imaginary, imaginary | pi, pi | euler, euler => true
  | sum as, sum bs | product as, product bs => beqAll as bs
  | power a x, power b y => beq a b && beq x y
  | apply f as, apply g bs => f == g && beqAll as bs
  | _, _ => false

def beqAll : List Expr → List Expr → Bool
  | [], [] => true
  | a :: as, b :: bs => beq a b && beqAll as bs
  | _, _ => false

end

instance : BEq Expr := ⟨beq⟩

def rat (q : Rat) : Expr := scalar (.exact q)

def int (n : Int) : Expr := rat n

def half : Expr := rat (mkRat 1 2)

def rational? : Expr → Option Rat
  | scalar (.exact q) => some q
  | _ => none

def isInteger (e : Expr) : Bool := e.rational?.any (·.den = 1)

def isSum : Expr → Bool
  | sum _ => true
  | _ => false

def isZero : Expr → Bool
  | scalar c => c.isZero
  | _ => false

def terms : Expr → List Expr
  | sum ts => ts
  | e => [e]

def factors : Expr → List Expr
  | product fs => fs
  | e => [e]

def ofFactors : List Expr → Expr
  | [] => int 1
  | [f] => f
  | fs => product fs

def parts : Expr → Scalar × Expr
  | product (scalar c :: fs) =>
    if c.isNumber then (c, ofFactors fs) else (.one, product (scalar c :: fs))
  | scalar c => if c.isNumber then (c, int 1) else (.one, scalar c)
  | e => (.one, e)

def exactParts (e : Expr) : Rat × Expr :=
  match e.parts with
  | (.exact q, rest) => (q, rest)
  | _ => (1, e)

def scaled (c : Scalar) (e : Expr) : Expr :=
  if c = .one then e
  else match e with
    | product fs => product (scalar c :: fs)
    | scalar d => scalar (c.mul d)
    | e => product [scalar c, e]

def rescaled (c : Scalar) (e : Expr) : Expr := scaled (c.mul e.parts.1) e.parts.2

def negTerm (e : Expr) : Expr :=
  match e with
  | scalar c => scalar c.neg
  | product (scalar c :: fs) => scaled c.neg (ofFactors fs)
  | e => scaled (.exact (-1)) e

mutual

def isConstant : Expr → Bool
  | scalar _ | imaginary | pi | euler => true
  | symbol _ => false
  | sum ts => areConstant ts
  | product fs => areConstant fs
  | power b e => b.isConstant && e.isConstant
  | apply f es => areConstant es && (match f with
    | .named _ => false
    | _ => true)

def areConstant : List Expr → Bool
  | [] => true
  | e :: es => e.isConstant && areConstant es

end

mutual

def symbols : Expr → List Text
  | symbol name => [name]
  | sum ts => symbolsOfAll ts
  | product fs => symbolsOfAll fs
  | power b e => b.symbols ++ e.symbols
  | apply _ es => symbolsOfAll es
  | _ => []

def symbolsOfAll : List Expr → List Text
  | [] => []
  | e :: es => e.symbols ++ symbolsOfAll es

end

end Expr

end GraphBlock.Algebra
