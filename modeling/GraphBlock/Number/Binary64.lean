/-!
The numbers of the binary64 format. A magnitude counts units of `2 ^ -1074`, the least positive
number, so sums and comparisons are those of integers; a magnitude belongs to the format when it
has at most 53 significant bits and stays below `2 ^ 1024`.
-/

namespace GraphBlock

namespace Powers

-- The powers of the core library, whatever other instances are in scope.
attribute [scoped instance (2000)] instPowNat

end Powers

open scoped Powers

namespace Binary64

/-- Units in the number one. -/
def one : Nat := 2 ^ (1074 : Nat)

theorem one_pos : 0 < one := by decide +kernel

def spacing (magnitude : Nat) : Nat := magnitude.log2 - 52

def limit : Nat := 2 ^ (2098 : Nat)

theorem limit_pos : 0 < limit := by decide +kernel

def Representable (magnitude : Nat) : Prop :=
  magnitude < limit ∧ magnitude % 2 ^ spacing magnitude = 0

instance (magnitude : Nat) : Decidable (Representable magnitude) :=
  inferInstanceAs (Decidable (_ ∧ _))

theorem representable_zero : Representable 0 := ⟨limit_pos, Nat.zero_mod _⟩

end Binary64

inductive Binary64
  | finite (negative : Bool) (magnitude : Nat) (representable : Binary64.Representable magnitude)
  | infinite (negative : Bool)
  | nan
  deriving DecidableEq, Repr

namespace Binary64

/-- The quotient `num / den` rounded to 53 bits; a tie goes to the even last bit. -/
def roundRatio (num den : Nat) : Nat :=
  let step := 2 ^ spacing (num / den)
  let unit := den * step
  let lower := num / unit
  let rest := num % unit
  if 2 * rest > unit ∨ (2 * rest = unit ∧ lower % 2 = 1) then (lower + 1) * step
  else lower * step

/-- The number nearest to `num / den` units; what rounds past the largest one is infinite. -/
def ofRatio (negative : Bool) (num den : Nat) : Binary64 :=
  if h : Representable (roundRatio num den) then finite negative (roundRatio num den) h
  else infinite negative

def zero (negative : Bool) : Binary64 := finite negative 0 representable_zero

def isFinite : Binary64 → Bool
  | finite .. => true
  | _ => false

def signed (negative : Bool) (magnitude : Nat) : Int :=
  if negative then -(magnitude : Int) else magnitude

def units? : Binary64 → Option Int
  | finite negative m _ => some (signed negative m)
  | _ => none

def ofInt (n : Int) : Binary64 := ofRatio (n < 0) (n.natAbs * one) 1

def add : Binary64 → Binary64 → Binary64
  | nan, _ => nan
  | _, nan => nan
  | infinite a, infinite b => if a = b then infinite a else nan
  | infinite a, _ => infinite a
  | _, infinite b => infinite b
  | finite a m _, finite b n _ =>
    let sum := signed a m + signed b n
    if sum = 0 then zero (a && b) else ofRatio (sum < 0) sum.natAbs 1

def floor? (x : Binary64) : Option Int := x.units?.map (· / one)

def toInt? (x : Binary64) : Option Int :=
  match x.units? with
  | some u => if u % one = 0 then some (u / one) else none
  | none => none

def half : Binary64 := ofRatio false one 2

end Binary64

end GraphBlock
