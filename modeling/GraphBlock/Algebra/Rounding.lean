import GraphBlock.Number.Binary64

namespace GraphBlock.Algebra

open scoped GraphBlock.Powers

def roundDiv (num den : Nat) : Nat :=
  let lower := num / den
  let rest := num % den
  if 2 * rest > den ∨ (2 * rest = den ∧ lower % 2 = 1) then lower + 1 else lower

def bitLength (q : Rat) : Int :=
  let e : Int := (q.num.natAbs.log2 : Int) - q.den.log2
  if q.den * 2 ^ e.toNat ≤ q.num.natAbs * 2 ^ (-e).toNat then e + 1 else e

def twoTo : Int → Rat
  | .ofNat n => (2 ^ n : Nat)
  | .negSucc n => mkRat 1 (2 ^ (n + 1))

def roundTo (precision : Nat) (q : Rat) : Rat :=
  if q = 0 then 0
  else
    let shift := precision - bitLength q
    let n := roundDiv (q.num.natAbs * 2 ^ shift.toNat) (q.den * 2 ^ (-shift).toNat)
    let magnitude := (n : Rat) * twoTo (-shift)
    if q < 0 then -magnitude else magnitude

def bitsPerDigit : Rat := mkRat 33219280948873626 (10 ^ (16 : Nat))

def precisionOfDigits (digits : Nat) : Nat := ((digits + 1) * bitsPerDigit + mkRat 1 2).floor.toNat

def digitsOfPrecision (precision : Nat) : Nat :=
  max 1 ((precision / bitsPerDigit + mkRat 1 2).floor.toNat - 1)

/-! Roots and factors of natural numbers. -/

def rootBits (k n : Nat) : (i : Nat) → Nat → Nat
  | 0, r => r
  | i + 1, r => rootBits k n i (if (r + 2 ^ i) ^ k ≤ n then r + 2 ^ i else r)

def integerRoot (k n : Nat) : Nat := rootBits k n (n.log2 / k + 1) 0

def exactRoot? (k n : Nat) : Option Nat :=
  let r := integerRoot k n
  if r ^ k = n then some r else none

def squareRoot (bits : Nat) (q : Rat) : Rat :=
  mkRat (integerRoot 2 (q.num.natAbs * 4 ^ bits / q.den)) (2 ^ bits)

def perfectPower (n : Nat) : (j : Nat) → Nat × Nat
  | 0 => (n, 1)
  | j + 1 =>
    match exactRoot? (j + 1) n with
    | some r => (r, j + 1)
    | none => perfectPower n j

def removeFactor (d : Nat) : (limit : Nat) → Nat → Nat × Nat
  | 0, n => (0, n)
  | limit + 1, n =>
    if n % d = 0 then
      let (times, rest) := removeFactor d limit (n / d)
      (times + 1, rest)
    else (0, n)

def multiplicity (d n : Nat) : Nat := (removeFactor d (n.log2 + 1) n).1

/-- The divisors found by trying the odd numbers from `d` on; what is left at the end is a prime, a
prime squared, a product of two primes, or has no divisor in reach. -/
def oddFactors : (tries : Nat) → (d n : Nat) → List (Nat × Nat)
  | 0, _, n => leftover n
  | tries + 1, d, n =>
    if n < d ^ 3 then leftover n
    else if n % d = 0 then
      let (times, rest) := removeFactor d (n.log2 + 1) n
      (d, times) :: oddFactors tries (d + 2) rest
    else oddFactors tries (d + 2) n
where
  leftover (n : Nat) : List (Nat × Nat) :=
    if n = 1 then []
    else
      let (base, times) := perfectPower n n.log2
      [(base, times)]

def factors (n : Nat) : List (Nat × Nat) :=
  let (base, times) := perfectPower n n.log2
  if 1 < times then [(base, times)]
  else
    let (twos, rest) := removeFactor 2 (n.log2 + 1) n
    (if twos = 0 then [] else [(2, twos)]) ++ oddFactors 524288 3 rest

end GraphBlock.Algebra
