import GraphBlock.Algebra.Simplify

namespace GraphBlock.Algebra

inductive Relation
  | less
  | greater
  | atMost
  | atLeast
  | equal
  | unequal
  deriving DecidableEq, Repr

inductive Statement
  | value (e : Expr)
  | truth (b : Bool)
  | related (relation : Relation) (left right : Expr)
  deriving BEq, Repr

namespace Expr

open Operations

/-- Whether a difference is at least zero. Constants that seem to be equal are so where they are
built of numbers and roots alone. -/
def nonnegative? (d : Expr) : Option Bool :=
  let n := d.nature
  if n.isZero && !d.isZero && !Application.isAlgebraic d then none
  else if n.isNonnegative then some true
  else if n.isNegative then some false
  else none

def atLeast? (a b : Expr) : Option Bool :=
  if !a.nature.isReal || !b.nature.isReal then none
  else if a == scalar (.infinite false) || b == scalar (.infinite true) then some true
  else (a.sub b).nonnegative?

abbrev Fraction := List Expr × List Expr

def fraction (term : Expr) : Fraction :=
  term.factors.foldl (fun (above, below) f => match f with
    | scalar (.exact q) => (above ++ [int q.num], below ++ [int q.den])
    | power b e =>
      if e.parts.1.isNegative then (above, below ++ [b.pow e.neg]) else (above ++ [f], below)
    | f => (above ++ [f], below)) ([], [])

def insertFraction (d n : Expr) : List (Expr × Expr) → List (Expr × Expr)
  | [] => [(d, n)]
  | (d', n') :: rest =>
    if d' == d then (d', n'.add n) :: rest else (d', n') :: insertFraction d n rest

def overOneDenominator (e : Expr) : Expr × Expr :=
  let product (es : List Expr) : Expr := full.mul es
  let fractions := (e.terms.map fraction).foldl
    (fun l (n, d) => insertFraction (product d) (product n) l) []
  let denominators := fractions.map (·.1)
  let numerators := fractions.zipIdx.map fun ((_, n), i) => product (n :: denominators.eraseIdx i)
  (full.add numerators, product denominators)

def wholeRatio? (x y : Expr) : Option Int :=
  match x.exactParts, y.exactParts with
  | (p, u), (q, v) =>
    let r := p / q
    if u == v && q != 0 && r.den = 1 then some r.num else none

mutual

/-- An expression in which a base, that is a symbol or a power of one, stands for something else. -/
def substitute (base v : Expr) : Expr → Expr
  | symbol n => if symbol n == base then v else symbol n
  | sum ts => full.add (substituteAll base v ts)
  | product fs => full.mul (substituteAll base v fs)
  | power b e =>
    let (b', e') := base.baseAndExponent
    match if b == b' then wholeRatio? e e' else none with
    | some n => v.pow (int n)
    | none => (substitute base v b).pow (substitute base v e)
  | apply f es =>
    match substituteAll base v es with
    | [x] => applied f x
    | xs => apply f xs
  | e => e

def substituteAll (base v : Expr) : List Expr → List Expr
  | [] => []
  | e :: es => substitute base v e :: substituteAll base v es

end

def linearBase? (e : Expr) : Option Expr :=
  match e.terms.filter fun t => !(t.rational?.isSome) with
  | [t] =>
    match t.exactParts.2 with
    | symbol name => some (symbol name)
    | power (symbol name) x => some (power (symbol name) x)
    | _ => none
  | _ => none

def sameAsInfinite? (a b : Expr) : Option Bool :=
  if (a.isInfinite && b.isInfinite) || a.value?.isSome || b.value?.isSome then some false
  else if a.nature.isReal && b.nature.isReal then do
    let left ← a.nature.positive?
    let right ← b.nature.positive?
    return left == right
  else if (a.nature.isReal && b.nature.isNonreal) || (a.nature.isNonreal && b.nature.isReal) then
    some false
  else none

/-- Two sides are equal if they are the same, or their difference is zero. What is undefined is not
even equal to itself. -/
def sameAs? (a b : Expr) : Option Bool :=
  if a == scalar .undefined || b == scalar .undefined then some false
  else if a == b then some true
  else if a.isInfinite || b.isInfinite then sameAsInfinite? a b
  else
    let d := a.sub b
    let n := d.nature
    if n.isZero then
      if d.isZero || Application.isAlgebraic d then some true else none
    else if n.isNonzero then some false
    else none

/-- Two sides whose difference has an infinite term above the line differ. If it is a constant over
a linear denominator, they differ if they do so where the denominator is infinite. -/
def differAtInfinity (a b : Expr) : Bool :=
  let (n, d) := (a.sub b).overOneDenominator
  if n.terms.any isInfinite then true
  else if n.nature.isNonzero && n.value?.isSome then
    match linearBase? d with
    | some base =>
      let infinity := scalar (.infinite false)
      sameAs? (substitute base infinity a) (substitute base infinity b) == some false
    | none => false
  else false

def equal? (a b : Expr) : Option Bool :=
  match sameAs? a b with
  | some same => some same
  | none => if !a.isInfinite && !b.isInfinite && differAtInfinity a b then some false else none

end Expr

namespace Relation

def decide? (r : Relation) (a b : Expr) : Option Bool :=
  match r with
  | atLeast => a.atLeast? b
  | less => (a.atLeast? b).map (!·)
  | atMost => b.atLeast? a
  | greater => (b.atLeast? a).map (!·)
  | equal => a.equal? b
  | unequal => (a.equal? b).map (!·)

def isOrder : Relation → Bool
  | equal | unequal => false
  | _ => true

def hasNoOrder (e : Expr) : Bool := e.nature.isNonreal || e == .scalar .undefined

def state? (r : Relation) (a b : Expr) : Option Statement :=
  if r.isOrder && (hasNoOrder a || hasNoOrder b) then none
  else match r.decide? a b with
    | some truth => some (.truth truth)
    | none => some (.related r a b)

end Relation

end GraphBlock.Algebra
