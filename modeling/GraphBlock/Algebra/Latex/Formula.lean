import GraphBlock.Algebra.Statement

namespace GraphBlock.Algebra.Latex

open scoped GraphBlock.Powers

inductive Formula
  | integer (digits : Text)
  | decimal (whole places : Text)
  | symbol (name : Text)
  | infinity
  | sum (a b : Formula)
  | difference (a b : Formula)
  | opposite (a : Formula)
  | product (a b : Formula)
  | quotient (a b : Formula)
  | fraction (above below : Formula)
  | adjacent (a b : Formula)
  | power (base exponent : Formula)
  | squareRoot (a : Formula)
  | root (degree a : Formula)
  | apply (f : Function) (a : Formula)
  | applyPower (f : Function) (exponent a : Formula)
  | logarithm (base a : Formula)
  | call (name : Text) (arguments : List Formula)
  | ambiguous
  deriving Repr, Inhabited

/-- What a formula stands for: an expression, or a differential by what stands beside its `d`.
Above a differential a fraction says what a derivative is taken by. -/
inductive Meaning
  | expr (e : Expr)
  | differential (along : Option Expr)
  deriving Repr

namespace Meaning

def expr? : Meaning → Option Expr
  | expr e => some e
  | differential _ => none

end Meaning

namespace Formula

def digitsValue (digits : Text) : Nat := digits.foldl (fun n c => 10 * n + (c.toNat - 48)) 0

/-- A decimal has the precision of its digits, leading zeros left out, but at least that of
fifteen digits. -/
def decimalValue (whole places : Text) : Scalar :=
  let digits := (whole ++ places).dropWhile (· == '0')
  let precision := precisionOfDigits (max 15 digits.length)
  .decimal (roundTo precision (mkRat (digitsValue digits) (10 ^ places.length))) precision

def inverse? : Function → Option Function
  | .sin => some .asin
  | .cos => some .acos
  | .tan => some .atan
  | _ => none

def derivative? (e : Expr) (along : Option Expr) : Option Expr :=
  match along with
  | some (.symbol name) =>
    some (if name ∈ e.symbols then .apply .derivative [e, .symbol name] else .int 0)
  | _ => none

/-- Two meanings side by side: a `d` makes a differential, a differential is taken by, and all else
is multiplied. -/
def beside? (a b : Meaning) : Option Meaning :=
  match a, b with
  | .differential along, .expr e => (derivative? e along).map .expr
  | .differential _, .differential _ => none
  | .expr (.symbol ['d']), b => some (.differential b.expr?)
  | .expr a, .expr b => some (.expr (a.mul b))
  | .expr _, .differential _ => none

def over? (above below : Meaning) : Option Meaning :=
  match above, below with
  | _, .differential along => some (.differential along)
  | .expr a, .expr b => some (.expr (a.div b))
  | .differential _, .expr _ => none

def appliedPower? (f : Function) (x y : Expr) : Option Expr :=
  (inverse? f).map fun g => if x == .int (-1) then .applied g y else (Expr.applied f y).pow x

def one? (f : Expr → Expr) (a : Option Meaning) : Option Meaning :=
  (a.bind Meaning.expr?).map fun x => .expr (f x)

def two? (f : Expr → Expr → Expr) (a b : Option Meaning) : Option Meaning := do
  let x ← a.bind Meaning.expr?
  let y ← b.bind Meaning.expr?
  return .expr (f x y)

mutual

def meaning? : Formula → Option Meaning
  | integer digits => some (.expr (.int (digitsValue digits)))
  | decimal whole places => some (.expr (.scalar (decimalValue whole places)))
  | symbol name => some (.expr (.symbol name))
  | infinity => some (.expr (.scalar (.infinite false)))
  | sum a b => two? Expr.add (meaning? a) (meaning? b)
  | difference a b => two? (fun x y => x.add y.neg) (meaning? a) (meaning? b)
  | opposite a => one? Expr.neg (meaning? a)
  | product a b => two? Expr.mul (meaning? a) (meaning? b)
  | quotient a b => two? Expr.div (meaning? a) (meaning? b)
  | fraction above below => do over? (← meaning? above) (← meaning? below)
  | adjacent a b => do beside? (← meaning? a) (← meaning? b)
  | power base exponent => two? Expr.pow (meaning? base) (meaning? exponent)
  | squareRoot a => one? (Expr.pow · .half) (meaning? a)
  | root degree a =>
    two? (fun n x => x.pow ((Expr.int 1).div n)) (meaning? degree) (meaning? a)
  | apply f a => one? (Expr.applied f) (meaning? a)
  | applyPower f exponent a => do
    let x ← (← meaning? exponent).expr?
    let y ← (← meaning? a).expr?
    return .expr (← appliedPower? f x y)
  | logarithm base a => two? Expr.logarithm (meaning? base) (meaning? a)
  | call name arguments => do
    let es ← exprs? arguments
    if h : '*' ∉ name then return .expr (.apply (.named ⟨name, h⟩) es) else none
  | ambiguous => none

def exprs? : List Formula → Option (List Expr)
  | [] => some []
  | f :: fs => do
    let e ← (← meaning? f).expr?
    return e :: (← exprs? fs)

end

def expr? (f : Formula) : Option Expr := f.meaning?.bind Meaning.expr?

end Formula

end GraphBlock.Algebra.Latex
