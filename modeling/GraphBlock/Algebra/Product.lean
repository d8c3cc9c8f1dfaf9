import GraphBlock.Algebra.Operations

namespace GraphBlock.Algebra.Product

open GraphBlock.Algebra.Expr

structure Gathered where
  constant : Scalar := .one
  turns : Rat := 0
  powers : List (Expr × Expr) := []
  numeric : List (Expr × Expr) := []
  roots : List (Scalar × Rat) := []

/-- Multiplies the constant by a number. Zero times an infinity is undefined, and an infinity
without direction takes up every other number. -/
def multiply (c d : Scalar) : Scalar :=
  match c with
  | .unbounded => if d = .undefined ∨ d.isZero then .undefined else .unbounded
  | c => c.mul d

namespace Gathered

def timesScalar (g : Gathered) (c : Scalar) : Gathered :=
  { g with constant := multiply g.constant c }

def timesWithin (ops : Operations) : (depth : Nat) → Gathered → Expr → Gathered
  | 0, g, e => { g with powers := g.powers ++ [e.baseAndExponent] }
  | depth + 1, g, e =>
    match e with
    | product fs => fs.foldl (timesWithin ops depth) g
    | scalar c => g.timesScalar c
    | imaginary => { g with turns := g.turns + mkRat 1 2 }
    | e =>
      match e, e.baseAndExponent with
      | power _ _, (scalar b, scalar (.exact r)) =>
        if !b.isNumber then { g with powers := g.powers ++ [(scalar b, rat r)] }
        else if r.den = 1 ∨ r < 0 then timesWithin ops depth g (ops.pow (scalar b) (rat r))
        else
          let g := if b.isNegative then { g with turns := g.turns + r } else g
          let b := b.magnitude
          if b = .one then g else { g with roots := g.roots ++ [(b, r)] }
      | power _ _, (scalar b, x) =>
        if b.finite?.any (0 < ·) then { g with numeric := g.numeric ++ [(scalar b, x)] }
        else { g with powers := g.powers ++ [(scalar b, x)] }
      | _, p => { g with powers := g.powers ++ [p] }

def times (ops : Operations) (g : Gathered) (e : Expr) : Gathered := timesWithin ops 6 g e

end Gathered

def insertExponent (b tail : Expr) (c : Scalar) :
    List (Expr × List (Expr × Scalar)) → List (Expr × List (Expr × Scalar))
  | [] => [(b, [(tail, c)])]
  | (b', exponents) :: rest =>
    if b' == b then (b', insertTail exponents) :: rest
    else (b', exponents) :: insertExponent b tail c rest
where
  insertTail : List (Expr × Scalar) → List (Expr × Scalar)
    | [] => [(tail, c)]
    | (t, d) :: rest => if t == tail then (t, d.add c) :: rest else (t, d) :: insertTail rest

def gather (ops : Operations) (powers : List (Expr × Expr)) : List (Expr × Expr) :=
  let byBase := powers.foldl (fun l (b, e) => insertExponent b e.parts.2 e.parts.1 l) []
  byBase.flatMap fun (b, exponents) =>
    exponents.map fun (tail, c) => (b, ops.mul [scalar c, tail])

/-- Factors already worked out, with the number that came out of them. -/
structure Evaluated where
  constant : Scalar
  factors : List Expr := []
  powers : List (Expr × Expr) := []
  changed : Bool := false

def hasInfinity (e : Expr) : Bool :=
  match e with
  | sum es | product es => es.any isInfinite
  | _ => false

def Evaluated.add (ops : Operations) (s : Evaluated) (b e : Expr) : Evaluated :=
  if e.isZero then
    if hasInfinity b then { s with constant := .undefined } else s
  else if e == int 1 then
    match b with
    | scalar c => { s with constant := multiply s.constant c }
    | b => { s with factors := s.factors ++ [b], powers := s.powers ++ [(b, e)] }
  else
    let p := ops.pow b e
    let (b', e') := match b, p with
      | power _ _, _ => (b, e)
      | _, power _ _ => p.baseAndExponent
      | _, _ => (b, e)
    { s with
      factors := s.factors ++ [p]
      powers := s.powers ++ [(b', e')]
      changed := s.changed || b' != b }

def hasRepeated : List Expr → Bool
  | [] => false
  | e :: es => es.contains e || hasRepeated es

def evaluatePowers (ops : Operations) : (rounds : Nat) → Scalar → List (Expr × Expr) → Evaluated
  | 0, c, powers => powers.foldl (fun s (b, e) => s.add ops b e) ⟨c, [], [], false⟩
  | rounds + 1, c, powers =>
    let s := powers.foldl (fun s (b, e) => s.add ops b e) ⟨c, [], [], false⟩
    if s.changed && hasRepeated (s.powers.map (·.1)) then
      evaluatePowers ops rounds s.constant (gather ops s.powers)
    else s

def insertBase (e b : Expr) : List (Expr × List Expr) → List (Expr × List Expr)
  | [] => [(e, [b])]
  | (e', bs) :: rest =>
    if e' == e then (e', bs ++ [b]) :: rest else (e', bs) :: insertBase e b rest

def joinBases (ops : Operations) (powers : List (Expr × Expr)) : List Expr :=
  (powers.foldl (fun l (b, e) => insertBase e b l) []).filterMap fun (e, bs) =>
    if e.isZero then none else some (ops.pow (ops.mul bs) e)

def insertRoot (b : Scalar) (r : Rat) : List (Scalar × Rat) → List (Scalar × Rat)
  | [] => [(b, r)]
  | (b', r') :: rest => if b' = b then (b', r' + r) :: rest else (b', r') :: insertRoot b r rest

def joinRoot (b : Scalar) (r : Rat) : List (Scalar × Rat) → List (Scalar × Rat)
  | [] => [(b, r)]
  | (b', r') :: rest =>
    if r' = r then (b'.mul b, r') :: rest else (b', r') :: joinRoot b r rest

def integerPower (ops : Operations) (b : Scalar) (n : Int) : Scalar :=
  match ops.pow (scalar b) (int n) with
  | scalar c => c
  | _ => .undefined

def properRoot (ops : Operations) (c b : Scalar) (r : Rat) : Scalar × Option (Scalar × Rat) :=
  if r.den = 1 then (c.mul (integerPower ops b r.num), none)
  else if 1 < r then
    (c.mul (integerPower ops b r.floor), some (b, r - r.floor))
  else (c, some (b, r))

def commonDivisor (a b : Scalar) : Scalar :=
  match a, b with
  | .exact p, .exact q => .exact (mkRat (p.num.gcd q.num) (p.den.lcm q.den))
  | _, _ => .decimal 1 53

def quotient (a b : Scalar) : Scalar :=
  match b with
  | .exact q => a.mul (.exact q⁻¹)
  | b => a.mul b

/-- Takes the common divisors of a root out of the roots that follow it. Gives the constant, the
base that is left, the other roots, and the roots of the divisors. -/
def separate (ops : Operations) (r : Rat) :
    Scalar → Scalar → List (Scalar × Rat) →
      Scalar × Scalar × List (Scalar × Rat) × List (Scalar × Rat)
  | c, b, [] => (c, b, [], [])
  | c, b, (b', r') :: rest =>
    let g := commonDivisor b b'
    if b = .one ∨ g = .one then
      let (c, b, rest, grown) := separate ops r c b rest
      (c, b, (b', r') :: rest, grown)
    else
      let (c, root) := properRoot ops c g (r + r')
      let (c, b, rest, grown) := separate ops r c (quotient b g) rest
      (c, b, (quotient b' g, r') :: rest, root.toList ++ grown)

def evaluateRoots (ops : Operations) :
    (limit : Nat) → Scalar → List (Scalar × Rat) → Scalar × List (Scalar × Rat)
  | 0, c, roots => (c, roots)
  | _, c, [] => (c, [])
  | limit + 1, c, (b, r) :: rest =>
    if b = .one then evaluateRoots ops limit c rest
    else
      let (c, b, rest, grown) := separate ops r c b rest
      if b = .one then evaluateRoots ops limit c (rest ++ grown)
      else
        let (c, found) := (ops.pow (scalar b) (rat r)).factors.foldl
          (fun (c, found) f => match f with
            | scalar d => (c.mul d, found)
            | power (scalar d) (scalar (.exact s)) => (c, found ++ [(d, s)])
            | _ => (Scalar.undefined, found)) (c, [])
        let (c, others) := evaluateRoots ops limit c (rest ++ grown)
        (c, found ++ others)

def joinSign (r : Rat) : List (Scalar × Rat) → Option (List (Scalar × Rat))
  | [] => none
  | (b, r') :: rest =>
    if r' = r then some ((b.neg, r') :: rest) else (joinSign r rest).map ((b, r') :: ·)

def evaluateTurns (turns : Rat) (roots : List (Scalar × Rat)) :
    Bool × List Expr × List (Scalar × Rat) :=
  let whole := turns.floor
  let fraction := turns - whole
  let negative := whole % 2 = 1
  if fraction = 0 then (negative, [], roots)
  else if fraction.den = 2 then (negative, [imaginary], roots)
  else match joinSign fraction roots with
    | some roots => (negative, [], roots)
    | none => (negative, [power (int (-1)) (rat fraction)], roots)

/-- Factors that do not change an infinite number are left out; a negative one changes its sign. -/
def absorb (c : Scalar) (fs : List Expr) : Scalar × List Expr :=
  match c with
  | .infinite _ =>
    let negative := (fs.filter fun f => f.nature.isNegative).length
    (if negative % 2 = 1 then c.neg else c,
      fs.filter fun f => !(f.nature.isPositive || f.nature.isNegative))
  | .unbounded => (c, fs.filter fun f => !f.nature.isNonzero)
  | c =>
    if c.isZero then (if fs.any isInfinite then .undefined else c, [])
    else (c, fs)

def finish (ops : Operations) (c : Scalar) (fs : List Expr) : Expr :=
  if c = .undefined then scalar c
  else
    let (c, fs) := absorb c fs
    let c := fs.foldl (fun c f => match f with
      | scalar d => multiply c d
      | _ => c) c
    let fs := sortFactors (fs.filter fun f => match f with
      | scalar _ => false
      | _ => true)
    match fs with
    | [] => scalar c
    | [sum ts] =>
      if c = .one then sum ts
      else if c.finite?.isSome then ops.add (ts.map fun t => ops.mul [scalar c, t])
      else product [scalar c, sum ts]
    | fs => if c = .one then ofFactors fs else product (scalar c :: fs)

def ofList (ops : Operations) (es : List Expr) : Expr :=
  match es.filter (· != int 1) with
  | [] => int 1
  | [e] => e
  | es =>
    let g := es.foldl (Gathered.times ops) {}
    let s := evaluatePowers ops 1 g.constant (gather ops g.powers)
    let numeric := joinBases ops (gather ops g.numeric)
    let byBase := g.roots.foldl (fun l (b, r) => insertRoot b r l) []
    let byExponent := byBase.foldl (fun l (b, r) => joinRoot b r l) []
    let (c, roots) := byExponent.foldl (fun (c, roots) (b, r) =>
      let (c, root) := properRoot ops c b r
      (c, roots ++ root.toList)) (s.constant, [])
    let (c, roots) := evaluateRoots ops 64 c roots
    let roots := roots.foldl (fun l (b, r) => joinRoot b r l) []
    let (negative, sign, roots) := evaluateTurns g.turns roots
    let c := if negative then c.neg else c
    let roots := roots.map fun (b, r) => ops.pow (scalar b) (rat r)
    finish ops c (s.factors ++ numeric ++ sign ++ roots)

end GraphBlock.Algebra.Product
