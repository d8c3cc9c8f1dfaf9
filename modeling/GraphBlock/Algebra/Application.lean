import GraphBlock.Algebra.Operations

namespace GraphBlock.Algebra.Application

open GraphBlock.Algebra.Expr

def ofDecimal (ops : Operations) (f : Function) (q : Rat) (precision : Nat) : Expr :=
  match f.atReal? q with
  | some z =>
    if z.im = 0 then scalar (.rounded z.re precision)
    else ops.add [scalar (.rounded z.re precision),
      ops.mul [scalar (.rounded z.im precision), imaginary]]
  | none => .apply f [scalar (.decimal q precision)]

def piMultiple? : Expr → Option Rat
  | pi => some 1
  | product [scalar (.exact r), pi] => some r
  | _ => none

def timesPi (ops : Operations) (r : Rat) : Expr := ops.mul [rat r, pi]

def partsByDifference : Nat → Option (Nat × Nat)
  | 12 => some (3, 4)
  | 15 => some (6, 10)
  | 20 => some (4, 5)
  | 24 => some (6, 8)
  | 30 => some (5, 6)
  | 40 => some (8, 10)
  | 60 => some (20, 30)
  | 120 => some (40, 60)
  | _ => none

/-- The cosine of `r` half turns. It is known for a third and a fifth, and from there by halves and
differences. -/
def cosineOfTurns? (ops : Operations) : (limit : Nat) → (r : Rat) → Option Expr
  | 0, _ => none
  | limit + 1, r =>
    let r := r - 2 * (r / 2).floor
    let r := if 1 < r then 2 - r else r
    let quarterRoot := ops.mul [rat (mkRat 1 4), ops.sqrt (int 5)]
    if mkRat 1 2 < r then (cosineOfTurns? ops limit (1 - r)).map Expr.neg
    else if r = 0 then some (int 1)
    else if r = mkRat 1 2 then some (int 0)
    else if r = mkRat 1 3 then some .half
    else if r = mkRat 1 5 then some (ops.add [rat (mkRat 1 4), quarterRoot])
    else if r = mkRat 2 5 then some (ops.add [rat (mkRat (-1) 4), quarterRoot])
    else match partsByDifference r.den with
      | some (m, n) => do
        let a := mkRat r.num m
        let b := mkRat r.num n
        let cosines := ops.mul
          [← cosineOfTurns? ops limit a, ← cosineOfTurns? ops limit b]
        let sines := ops.mul
          [← cosineOfTurns? ops limit (mkRat 1 2 - a), ← cosineOfTurns? ops limit (mkRat 1 2 - b)]
        return ops.add [cosines, sines]
      | none =>
        if r.den ≤ 12 ∧ r.den % 2 = 0 then
          (cosineOfTurns? ops limit (2 * r)).map fun c =>
            ops.sqrt (ops.mul [.half, ops.add [int 1, c]])
        else none

def mostSteps : Nat := 20

def sineOfTurns? (ops : Operations) (r : Rat) : Option Expr :=
  cosineOfTurns? ops mostSteps (r - mkRat 1 2)

def tangentOfTenths (ops : Operations) (n : Int) : Expr :=
  let of (a b : Rat) : Expr := ops.sqrt (ops.add [rat a, ops.mul [rat b, ops.sqrt (int 5)]])
  match n with
  | 1 => of 1 (mkRat (-2) 5)
  | 2 => of 5 (-2)
  | 3 => of 1 (mkRat 2 5)
  | _ => of 5 2

def tangentOfTurns? (ops : Operations) : (limit : Nat) → (r : Rat) → Option Expr
  | 0, _ => none
  | limit + 1, r =>
    let r := r - r.floor
    let cosine := cosineOfTurns? ops mostSteps
    if r = 0 then some (int 0)
    else if (10 * r).den = 1 ∧ (2 * r).den ≠ 1 then
      let n := (10 * r).num
      some (if 5 < n then (tangentOfTenths ops (10 - n)).neg else tangentOfTenths ops n)
    else
      let halved := do
        let c ← cosine (2 * r)
        let s ← cosine (2 * r - mkRat 1 2)
        return if s.isZero then scalar .unbounded else ops.sub (ops.inv s) (ops.div c s)
      let byDifference := do
        let (m, n) ← partsByDifference r.den
        let a ← tangentOfTurns? ops limit (mkRat r.num m)
        let b ← tangentOfTurns? ops limit (mkRat r.num n)
        return ops.div (ops.sub a b) (ops.add [int 1, ops.mul [a, b]])
      let quotient := do
        let c ← cosine r
        let s ← cosine (r - mkRat 1 2)
        return ops.div s c
      (if r.den % 2 = 0 then halved else none).or (byDifference.or quotient)

def swings : Function → Bool
  | .sin | .cos | .tan => true
  | _ => false

/-- A real constant, less as many periods of `period` half turns as leave it at least zero. -/
def withinPeriod? (ops : Operations) (period : Rat) (x : Expr) : Option Expr :=
  match x.value? with
  | some z =>
    if x.nature.isReal then
      let whole := (z.re / (period * Elementary.pi)).floor
      some (if whole = 0 then x else ops.sub x (timesPi ops (whole * period)))
    else none
  | none => none

def isAboveTurns (x : Expr) (r : Rat) : Bool := x.value?.any fun z => r * Elementary.pi < z.re

def complement (ops : Operations) (x : Expr) : Expr :=
  ops.sqrt (ops.sub (int 1) (ops.pow x (int 2)))

def hypotenuse (ops : Operations) (x : Expr) : Expr :=
  ops.sqrt (ops.add [ops.pow x (int 2), int 1])

def sine? (ops : Operations) (x : Expr) : Option Expr :=
  if x.isZero then some (int 0)
  else if x.hasMinus then some (ops.apply .sin x.neg).neg
  else match piMultiple? x, x with
    | some r, _ => sineOfTurns? ops r
    | none, .apply .asin [y] => some y
    | none, .apply .acos [y] => some (complement ops y)
    | none, .apply .atan [y] => some (ops.div y (hypotenuse ops y))
    | none, _ => none

def cosine? (ops : Operations) (x : Expr) : Option Expr :=
  if x.isZero then some (int 1)
  else if x.hasMinus then some (ops.apply .cos x.neg)
  else match piMultiple? x, x with
    | some r, _ => cosineOfTurns? ops mostSteps r
    | none, .apply .acos [y] => some y
    | none, .apply .asin [y] => some (complement ops y)
    | none, .apply .atan [y] => some (ops.inv (hypotenuse ops y))
    | none, _ => none

def tangent? (ops : Operations) (x : Expr) : Option Expr :=
  if x.isZero then some (int 0)
  else if x.hasMinus then some (ops.apply .tan x.neg).neg
  else match piMultiple? x, x with
    | some r, _ => tangentOfTurns? ops mostSteps r
    | none, .apply .atan [y] => some y
    | none, .apply .asin [y] => some (ops.div y (complement ops y))
    | none, .apply .acos [y] => some (ops.div (complement ops y) y)
    | none, _ => none

mutual

def isAlgebraic : Expr → Bool
  | scalar (.exact _) => true
  | sum ts => areAlgebraic ts
  | product fs => areAlgebraic fs
  | power b (scalar (.exact _)) => isAlgebraic b
  | _ => false

def areAlgebraic : List Expr → Bool
  | [] => true
  | e :: es => isAlgebraic e && areAlgebraic es

end

def knownArcs : List Rat :=
  [mkRat 1 12, mkRat 1 10, mkRat 1 8, mkRat 1 6, mkRat 1 5, mkRat 1 4, mkRat 3 10, mkRat 1 3,
    mkRat 3 8, mkRat 2 5, mkRat 5 12]

def knownArc? (f : Function) (x : Expr) : Option Rat :=
  if !isAlgebraic x then none
  else match x.value? with
    | some z =>
      if z.im = 0 then
        knownArcs.find? fun r =>
          match f.atReal? (r * Elementary.pi) with
          | some w => (w.re - z.re < tolerance : Bool) && (z.re - w.re < tolerance : Bool)
          | none => false
      else none
    | none => none

/-- The arc between minus a quarter turn and a quarter turn with the sine of a constant. -/
def arcOfSine? (ops : Operations) (x : Expr) : Option Expr :=
  (withinPeriod? ops 2 x).map fun x =>
    let x := if isAboveTurns x 1 then ops.sub pi x else x
    if isAboveTurns x (mkRat 1 2) then ops.sub pi x
    else if isAboveTurns x.neg (mkRat 1 2) then ops.sub (timesPi ops (-1)) x
    else x

def arcOfCosine? (ops : Operations) (x : Expr) : Option Expr :=
  (withinPeriod? ops 2 x).map fun x =>
    if isAboveTurns x 1 then ops.sub (timesPi ops 2) x else x

def fromQuarter (ops : Operations) (x : Expr) : Expr := ops.sub (timesPi ops (mkRat 1 2)) x

def infiniteArc (negative : Bool) : Expr := product [scalar (.infinite negative), imaginary]

def arcsine? (ops : Operations) (x : Expr) : Option Expr :=
  if x.isZero then some (int 0)
  else if x == int 1 then some (timesPi ops (mkRat 1 2))
  else if x == scalar .unbounded then some x
  else if x == scalar (.infinite false) then some (infiniteArc true)
  else if x.hasMinus then some (ops.apply .asin x.neg).neg
  else match x with
    | .apply .sin [y] => arcOfSine? ops y
    | .apply .cos [y] => (arcOfCosine? ops y).map (fromQuarter ops)
    | x => (knownArc? .sin x).map (timesPi ops)

def arccosine? (ops : Operations) (x : Expr) : Option Expr :=
  if x.isZero then some (timesPi ops (mkRat 1 2))
  else if x == int 1 then some (int 0)
  else if x == int (-1) then some pi
  else match x with
    | scalar .unbounded => some x
    | scalar (.infinite negative) => some (infiniteArc negative)
    | .apply .cos [y] => arcOfCosine? ops y
    | .apply .sin [y] => (arcOfSine? ops y).map (fromQuarter ops)
    | x =>
      match knownArc? .sin x, knownArc? .sin x.neg with
      | some r, _ => some (timesPi ops (mkRat 1 2 - r))
      | _, some r => some (timesPi ops (mkRat 1 2 + r))
      | _, _ => none

def arctangent? (ops : Operations) (x : Expr) : Option Expr :=
  if x.isZero then some (int 0)
  else if x == scalar (.infinite false) then some (timesPi ops (mkRat 1 2))
  else if x == int 1 then some (timesPi ops (mkRat 1 4))
  else if x.hasMinus then some (ops.apply .atan x.neg).neg
  else match x with
    | .apply .tan [y] => (withinPeriod? ops 1 y).map fun y =>
      if isAboveTurns y (mkRat 1 2) then ops.sub y pi else y
    | x => (knownArc? .tan x).map (timesPi ops)

def expOfProduct? (ops : Operations) (x : Expr) : Option Expr :=
  let (logs, others) := x.factors.partition fun f => match f with
    | .apply .log _ => true
    | _ => false
  match logs with
  | [.apply .log [b]] =>
    if others.all fun f => f.value?.isSome && f.nature.isReal then
      some (ops.pow b (ops.mul others))
    else none
  | _ => none

def expOfSum? (ops : Operations) (ts : List Expr) : Option Expr :=
  let step (s : List Expr × List Expr) (t : Expr) : List Expr × List Expr :=
    if t == int 1 then (s.1, s.2 ++ [t])
    else match ops.apply .exp t with
      | .apply .exp [u] => (s.1, s.2 ++ [u])
      | e => (s.1 ++ [e], s.2)
  let (out, kept) := ts.foldl step ([], [])
  if out.isEmpty && ofTerms kept == sum ts then none
  else
    let rest := ops.add kept
    let factor := if rest.isZero then int 1 else .apply .exp [rest]
    some (ops.mul (out ++ [factor]))

def exponential? (ops : Operations) (x : Expr) : Option Expr :=
  match x with
  | scalar (.infinite negative) => some (if negative then int 0 else x)
  | scalar .unbounded => some (scalar .undefined)
  | scalar c => if c.isZero then some (int 1) else if c = .one then some euler else none
  | .apply .log [y] => some y
  | product fs => expOfProduct? ops (product fs)
  | sum ts => expOfSum? ops ts
  | _ => none

def logarithm? (ops : Operations) (x : Expr) : Option Expr :=
  let turned (quarters : Rat) (y : Expr) : Expr :=
    ops.add [ops.mul [rat quarters, pi, imaginary], ops.apply .log y]
  match x with
  | scalar (.infinite _) => some (scalar (.infinite false))
  | scalar .unbounded => some x
  | euler => some (int 1)
  | .apply .exp [y] => if y.nature.isReal then some y else none
  | imaginary => some (ops.mul [.half, pi, imaginary])
  | product [scalar (.exact r), imaginary] =>
    some (if 0 < r then turned (mkRat 1 2) (rat r) else turned (mkRat (-1) 2) (rat (-r)))
  | x =>
    if x.isZero then some (scalar .unbounded)
    else if x == int 1 then some (int 0)
    else if x.nature.isNegative && x.isConstant then some (turned 1 x.neg)
    else match x with
      | scalar (.exact q) =>
        if q.num = 1 then some (ops.apply .log (int q.den)).neg else none
      | _ => none

/-- What the absolute value is taken of: a sum that is better written as its opposite is turned,
also as a factor. -/
def withoutSign (x : Expr) : Expr :=
  let turned (f : Expr) : Expr := if f.isSum && f.hasMinus then f.neg else f
  match x with
  | sum _ => turned x
  | product fs => ofFactors (sortFactors (fs.map turned))
  | power b e => if b.isSum && b.hasMinus && e.isInteger then power b.neg e else x
  | x => x

def isAbsolute : Expr → Bool
  | .apply .abs _ => true
  | _ => false

def absOfProduct (ops : Operations) (fs : List Expr) : Expr :=
  let step (s : List Expr × List Expr) (f : Expr) : List Expr × List Expr :=
    match f with
    | power b (scalar (.exact r)) =>
      let below := r.den = 1 ∧ r < 0
      let size := ops.apply .abs (if below then b else f)
      if isAbsolute size then (s.1, s.2 ++ [f])
      else (s.1 ++ [if below then ops.pow size (rat r) else size], s.2)
    | f =>
      let size := ops.apply .abs f
      if isAbsolute size then (s.1, s.2 ++ [f]) else (s.1 ++ [size], s.2)
  let (known, unknown) := fs.foldl step ([], [])
  let rest := if unknown.isEmpty then [] else [.apply .abs [ops.mul unknown]]
  ops.mul (known ++ rest)

def absOfPower? (ops : Operations) (b e : Expr) : Option Expr :=
  let n := b.nature
  if !n.isReal then none
  else if e.isInteger then
    if e.rational?.any (·.num % 2 = 0) then some (power b e)
    else some (ops.pow (ops.apply .abs b) e)
  else if n.isNonnegative then some (ops.pow b (ops.apply .re e))
  else if n.isNegative && e.nature.isReal then some (ops.pow b.neg e)
  else none

def reciprocalParts (fs : List Expr) : List Expr × List Expr :=
  fs.foldl (fun (above, below) f => match f with
    | power b e => if e.parts.1.isNegative then (above, below ++ [power b e.neg])
      else (above ++ [f], below)
    | f => (above ++ [f], below)) ([], [])

def absolute? (ops : Operations) (x : Expr) : Option Expr :=
  match x with
  | scalar .unbounded => some (scalar (.infinite false))
  | scalar c => some (scalar c.magnitude)
  | x =>
    let x := withoutSign x
    let (above, below) := reciprocalParts x.factors
    if !areConstant below && areConstant above then
      let under := ops.mul (below.map fun f => match f with
        | power b e => ops.pow b e
        | f => f)
      some (ops.div (ops.apply .abs (ops.mul above)) (ops.apply .abs under))
    else
      let kept := if x.nature.isNonnegative then some x
        else if x.nature.isNonpositive then some x.neg
        else if x.nature.isReal then none
        else match x with
          | imaginary => some (int 1)
          | .apply .exp [y] => some (ops.apply .exp (ops.apply .re y))
          | _ => none
      match x with
      | product fs => some (absOfProduct ops fs)
      | power b e => (absOfPower? ops b e).or (kept.or (some (.apply .abs [x])))
      | x => kept.or (some (.apply .abs [x]))

def roundConstant? (up : Bool) (e : Expr) : Option Int :=
  match e.value? with
  | some z => if z.im = 0 then some (if up then z.re.ceil else z.re.floor) else none
  | none => none

def integerValue? : Expr → Option Int
  | scalar c => match c.finite? with
    | some q => if q.den = 1 then some q.num else none
    | none => none
  | _ => none

/-- Rounding: integers among the terms stand outside, and rounding twice is rounding once. -/
def rounding? (ops : Operations) (up : Bool) (x : Expr) : Option Expr :=
  let f := if up then Function.ceiling else Function.floor
  match roundConstant? up x with
  | some n => some (int n)
  | none =>
    if x.isInfinite then some x
    else
      let (whole, rest) := x.terms.partition fun t => (integerValue? t).isSome
      let whole := (whole.filterMap integerValue?).foldl (· + ·) 0
      match rest with
      | [.apply .floor es] => some (ops.add [int whole, .apply .floor es])
      | [.apply .ceiling es] => some (ops.add [int whole, .apply .ceiling es])
      | [] => some (int whole)
      | rest => some (ops.add [int whole, .apply f [ofTerms rest]])

def realPart? (ops : Operations) (x : Expr) : Option Expr :=
  if x.nature.isReal then some x
  else match x with
    | sum ts => some (ops.add (ts.map (ops.apply .re)))
    | product fs =>
      let (real, others) := fs.partition fun f => f.nature.isReal
      if real.isEmpty then none
      else some (ops.mul (real ++ [.apply .re [ops.mul others]]))
    | .apply .re _ => some x
    | _ => none

def known? (ops : Operations) (f : Function) (x : Expr) : Option Expr :=
  match f with
  | .sin => sine? ops x
  | .cos => cosine? ops x
  | .tan => tangent? ops x
  | .asin => arcsine? ops x
  | .acos => arccosine? ops x
  | .atan => arctangent? ops x
  | .exp => exponential? ops x
  | .log => logarithm? ops x
  | .abs => absolute? ops x
  | .floor => rounding? ops false x
  | .ceiling => rounding? ops true x
  | .re => realPart? ops x
  | .derivative => none
  | .named _ => none

def of (ops : Operations) (f : Function) (x : Expr) : Expr :=
  if x == scalar .undefined ∨ (swings f ∧ x.isInfinite) then scalar .undefined
  else match known? ops f x, x with
    | some e, _ => e
    | none, scalar (.decimal q p) => ofDecimal ops f q p
    | none, x => .apply f [x]

/-- The logarithm to a base; whole powers of the base are drawn out of a number. -/
def logarithmTo (ops : Operations) (base x : Expr) : Expr :=
  let log := ops.apply .log
  if base == int 1 then
    if x == int 1 then scalar .undefined else scalar .unbounded
  else match multiplicity? base x with
    | some n =>
      if n = 0 then ops.div (log x) (log base)
      else ops.add [int n, ops.div (log (ops.div x (ops.pow base (int n)))) (log base)]
    | none => ops.div (log x) (log base)
where
  multiplicity? (base x : Expr) : Option Int :=
    match base, x with
    | scalar (.exact b), scalar (.exact q) =>
      let times (d n : Int) : Option Int :=
        if d < 2 ∨ n = 0 then none else some (multiplicity d.natAbs n.natAbs)
      if b.den = 1 ∧ q.den = 1 then times b.num q.num
      else if b.den = 1 then
        if q.num = 1 then (times b.num q.den).map (-·)
        else do return (← times b.num q.num) - (← times b.num q.den)
      else if b.num = 1 then times b.den q.den
      else do
        let like := min (← times b.num q.num) (← times b.den q.den)
        let cross := min (← times b.den q.num) (← times b.num q.den)
        return like - cross
    | _, _ => none

end GraphBlock.Algebra.Application
