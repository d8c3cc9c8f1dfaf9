import GraphBlock.Algebra.Elementary

namespace GraphBlock.Algebra

open scoped GraphBlock.Powers

structure Complex where
  re : Rat
  im : Rat
  deriving DecidableEq, Repr

namespace Complex

open Elementary

def ofReal (q : Rat) : Complex := ⟨q, 0⟩

def rounded (z : Complex) : Complex := ⟨roundTo accuracy z.re, roundTo accuracy z.im⟩

def add (z w : Complex) : Complex := rounded ⟨z.re + w.re, z.im + w.im⟩

def mul (z w : Complex) : Complex :=
  rounded ⟨z.re * w.re - z.im * w.im, z.re * w.im + z.im * w.re⟩

def squaredNorm (z : Complex) : Rat := z.re * z.re + z.im * z.im

def norm (z : Complex) : Rat :=
  if z.im = 0 then (if z.re < 0 then -z.re else z.re) else sqrt z.squaredNorm

def inv? (z : Complex) : Option Complex :=
  let n := z.squaredNorm
  if n = 0 then none else some (rounded ⟨z.re / n, -z.im / n⟩)

def natPower (z : Complex) : (bits : Nat) → (n : Nat) → Complex
  | 0, _ => ofReal 1
  | bits + 1, n =>
    if n = 0 then ofReal 1
    else
      let half := natPower z bits (n / 2)
      let square := half.mul half
      if n % 2 = 1 then square.mul z else square

def exp? (z : Complex) : Option Complex :=
  (Elementary.exp? z.re).map fun r =>
    if z.im = 0 then ofReal r else rounded ⟨r * cos z.im, r * sin z.im⟩

/-- The logarithm with the imaginary part above `-pi` and up to `pi`. -/
def log? (z : Complex) : Option Complex :=
  if z.squaredNorm = 0 then none
  else if z.im = 0 ∧ 0 < z.re then some (ofReal (log z.re))
  else some ⟨log z.squaredNorm / 2, angle z.re z.im⟩

def exponentBits : Nat := 40

def pow? (z w : Complex) : Option Complex :=
  if w.im = 0 ∧ w.re.den = 1 ∧ w.re.num.natAbs < 2 ^ exponentBits ∧
      (Elementary.largestArgument / 64 < w.re.num.natAbs → z.norm < 2) then
    if w.re < 0 then (z.natPower exponentBits w.re.num.natAbs).inv?
    else some (z.natPower exponentBits w.re.num.natAbs)
  else if z.squaredNorm = 0 then
    if 0 < w.re ∧ w.im = 0 then some (ofReal 0) else none
  else if z.im = 0 ∧ 0 < z.re ∧ w = ofReal (mkRat 1 2) then some (ofReal (sqrt z.re))
  else do
    let l ← z.log?
    (w.mul l).exp?

end Complex

end GraphBlock.Algebra
