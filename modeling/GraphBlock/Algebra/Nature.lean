import GraphBlock.Algebra.Approximation

namespace GraphBlock.Algebra

/-- An expression on the extended line with the signs that it may have, one that is a number times
the imaginary unit but not zero, another one that is not on the line, or one of which nothing is
known. -/
inductive Nature
  | real (negative zero positive : Bool)
  | imaginary
  | nonreal
  | unknown
  deriving DecidableEq, Repr

namespace Nature

def ofSign (q : Rat) : Nature := real (q < 0) (q == 0) (0 < q)

def ofScalar : Scalar → Nature
  | .infinite negative => real negative false !negative
  | .unbounded => nonreal
  | c => (c.finite?.map ofSign).getD unknown

def isReal : Nature → Bool
  | real .. => true
  | _ => false

def isNonreal : Nature → Bool
  | imaginary | nonreal => true
  | _ => false

def isPositive (n : Nature) : Bool := n == real false false true
def isNegative (n : Nature) : Bool := n == real true false false
def isZero (n : Nature) : Bool := n == real false true false

def isNonnegative : Nature → Bool
  | real negative _ _ => !negative
  | _ => false

def isNonpositive : Nature → Bool
  | real _ _ positive => !positive
  | _ => false

def positive? : Nature → Option Bool
  | real negative zero positive =>
    if !positive then some false else if !negative && !zero then some true else none
  | imaginary | nonreal => some false
  | unknown => none

def isNonzero : Nature → Bool
  | real _ zero _ => !zero
  | imaginary | nonreal => true
  | unknown => false

def add : Nature → Nature → Nature
  | real n z p, real n' z' p' => real (n || n') ((z && z') || (n && p') || (p && n')) (p || p')
  | _, _ => unknown

/-- A sum of real terms and one other is not real. Of more that are not real nothing is known,
unless all are imaginary and do not cancel out. -/
def sum (ns : List Nature) (value : Option Complex) : Nature :=
  if ns.contains unknown then unknown
  else match ns.filter isNonreal with
    | [] => ns.foldl add (ofSign 0)
    | [n] => if ns.length = 1 then n else nonreal
    | others =>
      if others.length = ns.length ∧ others.all (· == imaginary) ∧ value.any (·.im != 0) then
        imaginary
      else unknown

def mul : Nature → Nature → Nature
  | real n z p, real n' z' p' =>
    real ((n && p') || (p && n')) (z || z') ((n && n') || (p && p'))
  | imaginary, real _ false _ => imaginary
  | real _ false _, imaginary => imaginary
  | imaginary, imaginary => real true false true
  | nonreal, real _ false _ => nonreal
  | real _ false _, nonreal => nonreal
  | nonreal, imaginary => nonreal
  | imaginary, nonreal => nonreal
  | _, _ => unknown

def turned (r : Rat) (onLine : Bool) : Nature :=
  let r := if onLine then r else r / 2
  if r.den = 1 then real (r.num % 2 != 0) false (r.num % 2 = 0)
  else if r.den = 2 then imaginary
  else nonreal

/-- The power of a constant that is neither real nor imaginary: real if the angle is turned into
whole half turns. Only angles that are simple parts of a half turn are known. -/
def ofAngle (value : Option Complex) (r : Rat) : Nature :=
  match value with
  | some z =>
    let turns := Elementary.angle z.re z.im / Elementary.pi * 60
    let whole := (turns + mkRat 1 2).floor
    if turns - whole < twoTo (-300) ∧ whole - turns < twoTo (-300) then
      turned (r * whole / 60) true
    else unknown
  | none => unknown

def pow (base exponent : Nature) (value : Option Complex) (exact : Option Rat) : Nature :=
  match base, exact with
  | real false false true, _ => if exponent.isReal then real false false true else unknown
  | real n z p, some r =>
    if r.den = 1 ∧ (0 ≤ r ∨ !z) then
      if r.num % 2 = 0 then real false z (n || p) else real n z p
    else if !n ∧ 0 < r then real false z p
    else if !z ∧ !p then turned r true
    else unknown
  | imaginary, some r => turned r false
  | nonreal, some r => ofAngle value r
  | _, _ => unknown

def abs : Nature → Nature
  | real n z p => real false z (n || p)
  | unknown => real false true true
  | _ => real false false true

def apply (f : Function) (argument : Nature) (x value : Option Complex) : Nature :=
  let line := real true true true
  match f with
  | .sin | .cos | .atan => if argument.isReal then line else unknown
  | .tan | .floor | .ceiling => if argument.isReal && value.isSome then line else unknown
  | .asin | .acos =>
    if x.any fun z => z.im = 0 && z.re * z.re ≤ 1 then line
    else if argument.isReal && x.isSome then nonreal
    else unknown
  | .exp => if argument.isReal then ofSign 1 else unknown
  | .log =>
    if argument.isPositive then line
    else if argument.isNonreal then nonreal
    else unknown
  | .abs => argument.abs
  | .re => line
  | .derivative | .named _ => unknown

end Nature

namespace Expr

def signed (e : Expr) (n : Nature) : Nature :=
  match n, value? e with
  | .real .., some z => .ofSign z.re
  | n, _ => n

mutual

def outline : Expr → Nature
  | scalar c => .ofScalar c
  | symbol _ => .unknown
  | imaginary => .imaginary
  | pi | euler => .ofSign 1
  | sum ts => .sum (natures ts) (value? (sum ts))
  | product fs => (natures fs).foldl .mul (.ofSign 1)
  | power b x => .pow (signed b (outline b)) (signed x (outline x)) (value? b) x.rational?
  | apply f es =>
    match es, natures es with
    | [e], [n] => .apply f n (value? e) (value? (apply f es))
    | _, _ => .unknown

def natures : List Expr → List Nature
  | [] => []
  | e :: es => signed e (outline e) :: natures es

end

def nature (e : Expr) : Nature := signed e (outline e)

def isInfinite : Expr → Bool
  | scalar (.infinite _) | scalar .unbounded => true
  | _ => false

end Expr

end GraphBlock.Algebra
