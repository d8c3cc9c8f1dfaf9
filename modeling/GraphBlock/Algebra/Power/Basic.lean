import GraphBlock.Algebra.Power.Number

namespace GraphBlock.Algebra.Power

open GraphBlock.Algebra.Expr

def isEven (e : Expr) : Bool := e.rational?.any fun r => r.den = 1 && r.num % 2 = 0

def isHalf (e : Expr) : Bool := e.rational?.any (·.den = 2)

def realValue? (e : Expr) : Option Rat :=
  match e.value? with
  | some z => if z.im = 0 then some z.re else none
  | none => none

/-- The factor by which a half power of the power of a constant differs from the power with the
product of the exponents: one, minus one, or neither. -/
def turnSign? (b : Expr) (e x : Rat) : Option Int := do
  let z ← b.value?
  let angle := if z = ⟨0, 0⟩ then 0 else Elementary.angle z.re z.im
  let turns := (mkRat 1 2 - e * angle / (2 * Elementary.pi)).floor
  let angle := 2 * x * turns
  if angle.den = 1 then some (if angle.num % 2 = 0 then 1 else -1) else none

def ofPower? (ops : Operations) (b e x : Expr) : Option Expr :=
  let combined (b : Expr) : Expr := ops.pow b (ops.mul [e, x])
  if x.isInteger then some (combined b)
  else if !e.nature.isReal then none
  else if e == int (-1) ∧ isHalf x ∧ b.nature.isNegative then
    some (ops.mul [ops.pow (int (-1)) x, ops.pow b.neg (ops.mul [e, x])])
  else if e == int (-1) ∧ isHalf x ∧ (b.nature.isNonnegative ∨ b.nature.isNonreal) then
    some (ops.pow b x.neg)
  else
    let b := if isEven e && b.nature.isReal then ops.apply .abs b else b
    let size := realValue? e
    if size.any (fun r => -1 < r && r < 1) || e == int 1 then some (combined b)
    else if b.nature.isNonnegative then some (combined b)
    else if (b.value?.any (0 ≤ ·.re)) && size.any (fun r => -2 < r && r < 2) then
      some (combined b)
    else if isHalf x then do
      let r ← size
      let s ← turnSign? b r (← x.rational?)
      some (ops.mul [int s, combined b])
    else none

structure Signs where
  nonnegative : List Expr := []
  negative : List Expr := []
  others : List Expr := []

def Signs.add (s : Signs) (f : Expr) : Signs :=
  if f.nature.isNonnegative then { s with nonnegative := s.nonnegative ++ [f] }
  else if f.nature.isNegative then { s with negative := s.negative ++ [f] }
  else { s with others := s.others ++ [f] }

def Signs.separate (ops : Operations) (s : Signs) : List Expr × List Expr :=
  match s.negative with
  | [] => (s.nonnegative, s.others)
  | [f] =>
    match f with
    | scalar c =>
      if c = .exact (-1) ∨ s.others.isEmpty then (s.nonnegative, s.others ++ [f])
      else (s.nonnegative ++ [scalar c.neg], s.others ++ [int (-1)])
    | f => (s.nonnegative, s.others ++ [f])
  | f :: fs =>
    let (kept, fs) := match f with
      | scalar c => if s.others.isEmpty then (scalar c, fs) else (int 1, f :: fs)
      | f => (int 1, f :: fs)
    let kept := if fs.length % 2 = 1 then kept.neg else kept
    (s.nonnegative ++ fs.map (fun e => ops.mul [int (-1), e]),
      s.others ++ (if kept == int 1 then [] else [kept]))

/-- The power of a product with an exponent that is a number but not whole: factors that are not
negative are raised on their own. -/
def ofSplitProduct (ops : Operations) (fs : List Expr) (x : Expr) : Expr :=
  let (alone, others) := Signs.separate ops (fs.foldl Signs.add {})
  if alone.isEmpty then power (product fs) x
  else
    let rest := match others with
      | [] => []
      | others =>
        match ops.mul others with
        | product gs => [power (product gs) x]
        | e => [ops.pow e x]
    ops.mul (alone.map (fun f => ops.pow f x) ++ rest)

def largest (cs : List Scalar) : Scalar :=
  cs.foldl (fun big c => if (big.order c.magnitude).isLE then c.magnitude else big) .zero

def ofDecimalSum? (ops : Operations) (ts : List Expr) (x : Expr) : Option Expr :=
  let cs := ts.map (·.parts.1)
  let big := largest cs
  if !cs.any Scalar.isDecimal || big.finite? == some 1 || big.finite?.isNone then none
  else
    let reduced := ts.map fun t =>
      let (c, rest) := t.parts
      let c : Scalar := if c.magnitude.finite? = big.finite? then
          .exact (if c.isNegative then -1 else 1)
        else match ops.pow (scalar big) (int (-1)) with
          | scalar d => c.mul d
          | _ => c
      ops.mul [scalar c, rest]
    some (ops.mul [ops.pow (scalar big) x, ops.pow (ops.add reduced) x])

def gaussian? : List Expr → Option (Rat × Rat)
  | [a, b] =>
    match a, b with
    | scalar (.exact r), imaginary => some (r, 1)
    | scalar (.exact r), product [scalar (.exact i), imaginary] => some (r, i)
    | _, _ => none
  | _ => none

/-- The reciprocal of a complex number has a real denominator, and a square root is drawn where
the absolute value is rational. -/
def ofGaussian? (ops : Operations) (r i : Rat) (x : Expr) : Option Expr :=
  let norm := r * r + i * i
  if x == int (-1) then
    let conjugate := ofTerms [rat r, rescaled (.exact (-i)) imaginary]
    some (if norm = 1 then conjugate else product [rat norm⁻¹, conjugate])
  else if x == .half then
    match ops.sqrt (rat norm) with
    | scalar (.exact d) =>
      let root := ops.sqrt (rat ((d - r) / 2))
      let size := if i < 0 then -i else i
      let sign := if i < 0 then -1 else 1
      let real := ops.mul [rat ((d + r) / size), root]
      some (ops.add [real, ops.mul [rat sign, imaginary, root]])
    | _ => none
  else none

def ofSum? (ops : Operations) (ts : List Expr) (x : Expr) : Option Expr :=
  match x with
  | scalar (.exact r) =>
    match gaussian? ts with
    | some (a, b) => ofGaussian? ops a b x
    | none =>
      if (sum ts).isConstant || r = 1 || r = -1 then none else ofDecimalSum? ops ts x
  | scalar (.decimal r _) =>
    if r = 1 ∨ r = -1 then none else ofDecimalSum? ops ts x
  | _ => none

def ofImaginary? (ops : Operations) (a : Rat) : Option Expr :=
  match ops.sqrt (rat ((if a < 0 then -a else a) / 2)) with
  | scalar (.exact r) =>
    let root := ofTerms [int 1, if a < 0 then imaginary.neg else imaginary]
    some (if r = 1 then root else product [rat r, root])
  | _ => none

/-- A whole power of the absolute value of a real number does without the absolute value as far as
the exponent is even. -/
def ofAbsolute? (ops : Operations) (e x : Expr) : Option Expr :=
  if !e.nature.isReal || !x.isInteger then none
  else if isEven x then some (ops.pow e x)
  else if x == int (-1) then none
  else some (ops.mul [ops.pow e (ops.sub x (int 1)), .apply .abs [e]])

def ofKind? (ops : Operations) (b x : Expr) : Option Expr :=
  match b, x with
  | scalar c, x => ofScalar? ops c x
  | imaginary, scalar (.exact r) =>
    if r.den = 1 then
      some <| match r.num % 4 with
        | 0 => int 1
        | 1 => imaginary
        | 2 => int (-1)
        | _ => imaginary.neg
    else
      let whole := (r / 2).floor
      let rest := power imaginary (rat (r - 2 * whole))
      some (if whole % 2 = 0 then rest else rest.neg)
  | euler, x => some (ops.apply .exp x)
  | apply .exp [e], x => ofPower? ops euler e x
  | apply .abs [e], x => ofAbsolute? ops e x
  | power _ _, x =>
    let (b', e) := b.baseAndExponent
    ofPower? ops b' e x
  | product fs, scalar (.exact r) =>
    if r.den = 1 then some (ops.mul (fs.map fun f => ops.pow f x))
    else
      let root := match fs with
        | [scalar (.exact a), imaginary] => if r = mkRat 1 2 then ofImaginary? ops a else none
        | _ => none
      root.or (some (ofSplitProduct ops fs x))
  | product fs, scalar (.decimal _ _) => some (ofSplitProduct ops fs x)
  | sum ts, x => ofSum? ops ts x
  | _, _ => none

def ofInfiniteExponent? (ops : Operations) (b : Expr) : Option Expr :=
  let above := (ops.sub b (int 1)).nature
  let below := (ops.add [b, int 1]).nature
  if above.isPositive then some (scalar (.infinite false))
  else if below.isPositive ∧ above.isNegative then some (int 0)
  else if below.isNegative then
    some (scalar (if b.isInfinite then .undefined else .unbounded))
  else none

def ofLogarithm? (ops : Operations) (b x : Expr) : Option Expr :=
  let reciprocal := power (apply .log [b]) (int (-1))
  let fs := x.factors
  if fs.contains reciprocal then
    some (ops.apply .exp (ops.mul (fs.filter (· != reciprocal))))
  else none

/-- The power after the exponents zero and one. A minus sign of a number is drawn out of a whole
power. -/
def ofProper (ops : Operations) (b x : Expr) : Expr :=
  let signed := x.isInteger && b.isConstant && b.hasMinus && (match b with
    | scalar _ | product _ => true
    | _ => false)
  if signed && !isEven x then (ops.pow b.neg x).neg
  else
    let b := if signed then b.neg else b
    if b == scalar .undefined || x == scalar .undefined then scalar .undefined
    else if b == int 1 then (if x.isInfinite then scalar .undefined else int 1)
    else ((ofLogarithm? ops b x).or (ofKind? ops b x)).getD (power b x)

def of (ops : Operations) (b x : Expr) : Expr :=
  match x with
  | scalar .unbounded => scalar .undefined
  | scalar (.infinite false) => (ofInfiniteExponent? ops b).getD (ofProper ops b x)
  | x =>
    if x == int 0 then int 1
    else if x == int 1 then b
    else if x == int (-1) && b.isZero then scalar .unbounded
    else ofProper ops b x

end GraphBlock.Algebra.Power
