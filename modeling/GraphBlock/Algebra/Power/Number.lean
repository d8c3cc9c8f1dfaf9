import GraphBlock.Algebra.Operations
import GraphBlock.Algebra.Radical
import GraphBlock.Algebra.Power.Decimal

namespace GraphBlock.Algebra.Power

open scoped GraphBlock.Powers

open GraphBlock.Algebra.Expr

def largestLength : Nat := 2 ^ (22 : Nat)

def exactPower? (q : Rat) (n : Int) : Option Rat :=
  if largestLength < n.natAbs * (q.num.natAbs.log2 + q.den.log2) then none
  else if n < 0 then some (q ^ n.natAbs)⁻¹
  else some (q ^ n.natAbs)

def oneLike : Expr → Expr
  | scalar (.decimal _ p) => scalar (.decimal 1 p)
  | _ => int 1

def ofZero? (ops : Operations) (base x : Expr) : Option Expr :=
  if x.isZero then some (oneLike base)
  else if x.nature.isPositive then some base
  else if x.nature.isNegative then some (scalar .unbounded)
  else if x.nature.isNonreal then some (scalar .undefined)
  else
    let (c, rest) := x.parts
    if c.isNegative then some (ops.pow (scalar .unbounded) rest)
    else if c != .one then some (ops.pow base rest)
    else none

def ofNatural? (ops : Operations) (n : Nat) (r : Rat) : Option Expr :=
  (Radical.ofPower? n r.num.natAbs r.den).map fun root =>
    ops.mul (int root.outside ::
      root.roots.map fun (b, s) => if b = n ∧ s = r then power (int b) (rat s) else
        ops.pow (int b) (rat s))

/-- The power of a positive rational with an exponent that is positive and not whole: the part
below the line is brought above it. -/
def ofPositive? (ops : Operations) (q r : Rat) : Option Expr :=
  if q.den = 1 then ofNatural? ops q.num.natAbs r
  else
    let whole := r.floor + 1
    some <| ops.mul [ops.pow (int q.num) (rat r), ops.pow (int q.den) (rat (whole - r)),
      ops.pow (int q.den) (int (-whole))]

def ofMinusOne? (ops : Operations) (r : Rat) : Option Expr :=
  if r = mkRat 1 2 then some imaginary
  else if r.den = 2 then some (ops.pow imaginary (int r.num))
  else if r.floor = 0 then none
  else some (ops.mul [ops.pow (int (-1)) (int r.floor), ops.pow (int (-1)) (rat (r - r.floor))])

def ofExact? (ops : Operations) (q r : Rat) : Option Expr :=
  if r.den = 1 then (exactPower? q r.num).map rat
  else if q = -1 then ofMinusOne? ops r
  else if q < 0 then
    if r = mkRat 1 2 then some (ops.mul [imaginary, ops.pow (rat (-q)) (rat r)])
    else if r < 0 then
      some (ops.mul [ops.pow (int (-1)) (rat r), ops.pow (rat (-q⁻¹)) (rat (-r))])
    else if q.den = 1 then
      match exactRoot? r.den q.num.natAbs with
      | some n => some (ops.mul [int ((n : Int) ^ r.num.natAbs), ops.pow (int (-1)) (rat r)])
      | none =>
        (ofNatural? ops q.num.natAbs r).map fun e => ops.mul [e, ops.pow (int (-1)) (rat r)]
    else
      let whole := r.floor + 1
      some <| ops.mul [ops.pow (int q.num) (rat r), ops.pow (int q.den) (rat (whole - r)),
        ops.pow (int q.den) (int (-whole))]
  else if r < 0 then some (ops.pow (rat q⁻¹) (rat (-r)))
  else ofPositive? ops q r

def ofDecimal? (ops : Operations) (q : Rat) (precision : Nat) (x : Scalar) : Option Expr :=
  let real (q r : Rat) (p : Nat) : Option Expr :=
    (Decimals.realPower? p q r).map fun v => scalar (.rounded v p)
  let general (r : Rat) (p : Nat) : Option Expr :=
    if q < 0 ∧ r.den != 1 then
      (Decimals.complexPower? p q r).map fun (re, im) =>
        ops.add [scalar (.rounded re p), ops.mul [scalar (.rounded im p), imaginary]]
    else real q r p
  match x with
  | .exact r =>
    if r.den = 1 then some (scalar (.rounded (Decimals.wholePower precision q r.num) precision))
    else if r.num = 1 ∧ r.den % 2 = 1 ∧ q < 0 then
      (real (-q) (roundTo precision r) precision).map fun e =>
        ops.mul [power (int (-1)) (rat r), e]
    else general (roundTo precision r) precision
  | .decimal r p => general r (max precision p)
  | _ => none

def ofInfinity? (x : Expr) : Option Expr :=
  if x.nature.isPositive then some (scalar (.infinite false))
  else if x.nature.isNegative then some (int 0)
  else none

def ofScalar? (ops : Operations) (c : Scalar) (x : Expr) : Option Expr :=
  if c.isZero then ofZero? ops (scalar c) x
  else
    match c, x with
    | .exact q, scalar (.exact r) => ofExact? ops q r
    | .exact q, scalar (.decimal r p) => some (ops.pow (scalar (.toDecimal p (.exact q)))
        (scalar (.decimal r p)))
    | .exact q, scalar (.infinite true) => some (ops.pow (rat q⁻¹) (scalar (.infinite false)))
    | .decimal q p, scalar d => ofDecimal? ops q p d
    | .infinite false, x => ofInfinity? x
    | .infinite true, scalar d =>
      let size := ops.pow (scalar (.infinite false)) (scalar d)
      if size.isZero then some size
      else some (ops.mul [ops.pow (int (-1)) (scalar d), size])
    | .unbounded, scalar d =>
      some (if d.isPositive then scalar .unbounded else int 0)
    | _, _ => none

end GraphBlock.Algebra.Power
