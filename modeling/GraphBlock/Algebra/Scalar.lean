import GraphBlock.Number.Layout
import GraphBlock.Algebra.Rounding

namespace GraphBlock.Algebra

open scoped GraphBlock.Powers

inductive Scalar
  | exact (q : Rat)
  | decimal (q : Rat) (precision : Nat)
  | infinite (negative : Bool)
  | unbounded
  | undefined
  deriving DecidableEq, Repr, Inhabited

namespace Scalar

def zero : Scalar := exact 0
def one : Scalar := exact 1

def finite? : Scalar → Option Rat
  | exact q => some q
  | decimal q _ => some q
  | _ => none

def isZero (c : Scalar) : Bool := c.finite? == some 0

def isDecimal : Scalar → Bool
  | decimal .. => true
  | _ => false

def isNegative : Scalar → Bool
  | exact q => q < 0
  | decimal q _ => q < 0
  | infinite negative => negative
  | _ => false

def isPositive : Scalar → Bool
  | exact q => 0 < q
  | decimal q _ => 0 < q
  | infinite negative => !negative
  | _ => false

def isNumber : Scalar → Bool
  | unbounded => false
  | _ => true

def rounded (q : Rat) (precision : Nat) : Scalar :=
  if q = 0 then zero else decimal (roundTo precision q) precision

def toDecimal (precision : Nat) : Scalar → Scalar
  | exact q => decimal (roundTo precision q) precision
  | c => c

/-- A calculation on two finite numbers: exact on exact numbers, otherwise rounded to the larger
precision, after the exact one is rounded. -/
def lift (f : Rat → Rat → Rat) : Scalar → Scalar → Option Scalar
  | exact a, exact b => some (exact (f a b))
  | exact a, decimal b p => some (rounded (f (roundTo p a) b) p)
  | decimal a p, exact b => some (rounded (f a (roundTo p b)) p)
  | decimal a p, decimal b r => some (rounded (f a b) (max p r))
  | _, _ => none

def add (a b : Scalar) : Scalar :=
  match lift (· + ·) a b, a, b with
  | some c, _, _ => c
  | none, undefined, _ => undefined
  | none, _, undefined => undefined
  | none, unbounded, c => if c.finite?.isSome then unbounded else undefined
  | none, c, unbounded => if c.finite?.isSome then unbounded else undefined
  | none, infinite m, infinite n => if m = n then infinite m else undefined
  | none, infinite m, _ => infinite m
  | none, _, c => c

def mul (a b : Scalar) : Scalar :=
  match lift (· * ·) a b with
  | some c => c
  | none =>
    if a = undefined ∨ b = undefined ∨ a.isZero ∨ b.isZero then undefined
    else if a = unbounded ∨ b = unbounded then unbounded
    else infinite (a.isNegative != b.isNegative)

def neg : Scalar → Scalar
  | exact q => exact (-q)
  | decimal q p => decimal (-q) p
  | infinite negative => infinite !negative
  | c => c

def magnitude (c : Scalar) : Scalar := if c.isNegative then c.neg else c

def order (a b : Scalar) : Ordering :=
  match a.finite?, b.finite? with
  | some p, some q => if p < q then .lt else if q < p then .gt else .eq
  | some _, none => if b.isNegative then .gt else .lt
  | none, some _ => if a.isNegative then .lt else .gt
  | none, none => compare b.isNegative a.isNegative

def reaches (num den : Nat) (e : Int) : Bool := den * 10 ^ e.toNat ≤ num * 10 ^ (-e).toNat

/-- The exponent `e` with `10 ^ e ≤ num / den < 10 ^ (e + 1)`, estimated from the lengths in bits
and then corrected by one at most. -/
def decimalExponent (num den : Nat) : Int :=
  let bits : Int := num.log2 - den.log2
  let e := bits * 30103 / 100000
  if reaches num den (e + 1) then e + 1 else if reaches num den e then e else e - 1

def leadingDigits (count : Nat) (num den : Nat) : Text × Int :=
  let e := decimalExponent num den
  let top := num * 10 ^ (count - e).toNat
  let bottom := den * 10 ^ (e - count).toNat
  let n := (top / bottom + 5) / 10
  if n = 10 ^ count then (natText (10 ^ (count - 1)), e + 1) else (natText n, e)

/-- The point of a decimal stays in place as long as the exponent is below the number of digits
and above the third part of it, taken negative. -/
def layout (digits : Nat) : Layout := ⟨min (-(digits / 3 : Nat) : Int) (-5) + 1, digits, 1, true⟩

/-- A decimal shows the digits of its precision; zeros at its end only where it stands alone. -/
def decimalText (alone : Bool) (q : Rat) (precision : Nat) : Text :=
  if q = 0 then "0.0"
  else
    let count := digitsOfPrecision precision
    let (digits, e) := leadingDigits count q.num.natAbs q.den
    let digits := if alone then digits else Text.trimBy (· == '0') digits
    (if q < 0 then "-" else "" : Text) ++ (layout count).write digits e

def text : Scalar → Text
  | exact q => if q.den = 1 then intText q.num else intText q.num ++ '/' :: natText q.den
  | decimal q p => decimalText false q p
  | infinite false => "oo"
  | infinite true => "-oo"
  | unbounded => "zoo"
  | undefined => "nan"

end Scalar

end GraphBlock.Algebra
