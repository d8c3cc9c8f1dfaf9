import GraphBlock.Algebra.Approximation

/-!
The order in which factors and terms are written. Factors stand by their keys: numbers, then
symbols, then compound bases, then functions, and equal bases by their exponents. Terms stand by
the powers of their symbolic factors, higher powers first, and then by their numbers.
-/

namespace GraphBlock.Algebra

structure Rank where
  level : Nat
  place : Nat
  name : Text
  deriving DecidableEq, Repr

def textOrder (a b : Text) : Ordering :=
  if a.map Char.toNat < b.map Char.toNat then .lt else if a = b then .eq else .gt

def Rank.order (a b : Rank) : Ordering :=
  (compare a.level b.level).then <| (compare a.place b.place).then <| textOrder a.name b.name

namespace Rank

def number : Rank := ⟨1, 0, "Number"⟩
def atom (name : Text) : Rank := ⟨2, 0, name⟩
def product : Rank := ⟨3, 0, "Product"⟩
def sum : Rank := ⟨3, 1, "Sum"⟩
def power : Rank := ⟨3, 2, "Power"⟩

end Rank

/-- The functions with a place of their own stand before the others, those of which only the name
is known before all, and derivatives after all. -/
def Function.rank (f : Function) : Rank :=
  match f with
  | .exp => ⟨4, 10, f.name⟩
  | .log => ⟨4, 11, f.name⟩
  | .sin => ⟨4, 20, f.name⟩
  | .cos => ⟨4, 21, f.name⟩
  | .tan => ⟨4, 22, f.name⟩
  | .re => ⟨4, 41, f.name⟩
  | .named _ => ⟨4, 0, f.name⟩
  | .derivative => ⟨5, 0, f.name⟩
  | _ => ⟨4, 10000, f.name⟩

/-- What is compared of an expression: a number alone, or the class of its base, what the base
consists of, its exponent and its coefficient. -/
inductive Key
  | number (c : Scalar)
  | compound (rank : Rank) (label : Text) (arguments : List Key) (exponent : Key)
    (coefficient : Scalar)
  deriving Inhabited

namespace Key

def count (label : Text) (arguments : List Key) : Nat :=
  if label.isEmpty then arguments.length else 1

mutual

def order : Key → Key → Ordering
  | number a, number b => a.order b
  | number _, compound rank _ _ _ _ => (Rank.number.order rank).then .lt
  | compound rank _ _ _ _, number _ => (rank.order Rank.number).then .gt
  | compound rank label arguments exponent c, compound rank' label' arguments' exponent' c' =>
    (rank.order rank').then <|
      (compare (count label arguments) (count label' arguments')).then <|
      (textOrder label label').then <|
      (orderAll arguments arguments').then <|
      (order exponent exponent').then <| c.order c'

def orderAll : List Key → List Key → Ordering
  | [], [] => .eq
  | [], _ => .lt
  | _, [] => .gt
  | a :: as, b :: bs => (order a b).then (orderAll as bs)

end

end Key

structure Shape where
  rank : Rank
  label : Text
  arguments : List Key

namespace Shape

def key (s : Shape) (exponent : Key) (c : Scalar) : Key :=
  .compound s.rank s.label s.arguments exponent c

def atom (kind name : Text) : Shape := ⟨.atom kind, name, []⟩

end Shape

namespace Expr

mutual

def shape : Expr → Shape
  | scalar .unbounded => .atom "ComplexInfinity" "zoo"
  | scalar c => ⟨.number, c.text, []⟩
  | symbol name => .atom "Symbol" name
  | imaginary => .atom "ImaginaryUnit" "I"
  | pi => .atom "Pi" "pi"
  | euler => .atom "Exp1" "E"
  | sum ts => ⟨.sum, [], keys ts⟩
  | product fs => ⟨.product, [], keys fs⟩
  | power b e => ⟨.power, [], [b.key, e.key]⟩
  | apply f es => ⟨f.rank, [], keys es⟩

def key : Expr → Key
  | scalar .unbounded => (Shape.atom "ComplexInfinity" "zoo").key (.number .one) .one
  | scalar c => .number c
  | power b e => (shape b).key (key e) .one
  | product (scalar c :: fs) =>
    if c.isNumber then
      match keys fs with
      | [.compound rank label arguments exponent _] => .compound rank label arguments exponent c
      | ks => .compound .product [] ks (.number .one) c
    else .compound .product [] (key (scalar c) :: keys fs) (.number .one) .one
  | product fs => .compound .product [] (keys fs) (.number .one) .one
  | e => (shape e).key (.number .one) .one

def keys : List Expr → List Key
  | [] => []
  | e :: es => key e :: keys es

end

def sortFactors (fs : List Expr) : List Expr :=
  fs.mergeSort fun a b => (a.key.order b.key).isLE

def baseAndExponent : Expr → Expr × Expr
  | power (scalar (.exact q)) e =>
    if 0 < q ∧ q < 1 then (rat q⁻¹, rescaled (.exact (-1)) e) else (rat q, e)
  | power b e => (b, e)
  | apply .exp [e] => (euler, e)
  | e => (e, int 1)

/-- The generator that a symbolic factor is a whole power of, by its key, and the exponent. -/
def generator (e : Expr) : Key × Int :=
  let (b, x) := e.baseAndExponent
  match x with
  | scalar (.exact r) =>
    if r.den = 1 then (b.key, r.num) else ((power b (rat (mkRat 1 r.den))).key, r.num)
  | scalar _ => (e.key, 1)
  | x =>
    let (r, tail) := x.exactParts
    if r = 1 then (e.key, 1)
    else
      let tail := rescaled (.exact (mkRat 1 r.den)) tail
      let root := if b == euler then apply .exp [tail] else power b tail
      (root.key, r.num)

def generators (term : Expr) : List (Key × Int) :=
  let symbolic := term.parts.2.factors.filter fun f => !f.isConstant
  (symbolic.map generator).mergeSort fun a b => (a.1.order b.1).isLE

def coefficient (term : Expr) : Complex :=
  let (c, rest) := term.parts
  (rest.factors.filterMap approximate?).foldl .mul (.ofReal (c.finite?.getD 0))

/-- The term with the higher power of the first generator in which two terms differ comes first. -/
def generatorsBefore : List (Key × Int) → List (Key × Int) → Option Bool
  | [], [] => none
  | (_, m) :: _, [] => some (0 < m)
  | [], (_, n) :: _ => some (n < 0)
  | (g, m) :: a, (h, n) :: b =>
    match g.order h with
    | .lt => some (0 < m)
    | .gt => some (n < 0)
    | .eq => if m = n then generatorsBefore a b else some (n < m)

def coefficientLE (z w : Complex) : Bool :=
  if (z.im == 0) != (w.im == 0) then z.im == 0
  else z.im < w.im || (z.im == w.im && z.re ≤ w.re)

def before (a b : Expr) : Bool :=
  (generatorsBefore a.generators b.generators).getD (coefficientLE a.coefficient b.coefficient)

def numberFirst : List Expr → List Expr
  | [product [scalar c, f], e] =>
    let positive := match e with
      | scalar d => d.finite?.any (0 < ·)
      | pi | euler => true
      | _ => false
    if positive && c.isNumber && c.isNegative then [e, product [scalar c, f]]
    else [product [scalar c, f], e]
  | ts => ts

def sortTerms (ts : List Expr) : List Expr :=
  let ts := ts.mergeSort fun a b => (a.key.order b.key).isLE
  numberFirst (ts.mergeSort before)

def ofTerms (ts : List Expr) : Expr :=
  match sortTerms ts with
  | [] => int 0
  | [t] => t
  | ts => sum ts

def neg : Expr → Expr
  | sum ts => ofTerms (ts.map negTerm)
  | e => e.negTerm

/-- Whether an expression is better written as the opposite of its opposite: it has a minus sign,
or is a sum with more terms with one than without, or with as many and its opposite is not in
order before it. -/
def hasMinus (e : Expr) : Bool :=
  let signed (t : Expr) : Bool := t.parts.1.isNegative
  match e with
  | sum ts =>
    let negative := (ts.filter signed).length
    let positive := ts.length - negative
    if positive = negative then (e.key.order e.neg.key).isLT else positive < negative
  | e => signed e

end Expr

end GraphBlock.Algebra
