import GraphBlock.Algebra.Complex
import GraphBlock.Algebra.Expr

namespace GraphBlock.Algebra

open Elementary

def Complex.arcsin (x : Rat) : Complex :=
  if x = 1 ∨ x = -1 then .ofReal (x * pi / 2)
  else if x * x < 1 then .ofReal (arctan (x / sqrt (1 - x * x)))
  else if 0 < x then ⟨pi / 2, -log (x + sqrt (x * x - 1))⟩
  else ⟨-pi / 2, log (-x + sqrt (x * x - 1))⟩

namespace Function

def atReal? (f : Function) (x : Rat) : Option Complex :=
  match f with
  | sin => some (.ofReal (Elementary.sin x))
  | cos => some (.ofReal (Elementary.cos x))
  | tan =>
    let c := Elementary.cos x
    if c = 0 then none else some (.ofReal (roundTo accuracy (Elementary.sin x / c)))
  | asin => some (Complex.arcsin x)
  | acos =>
    let z := Complex.arcsin x
    some ⟨pi / 2 - z.re, -z.im⟩
  | atan => some (.ofReal (arctan x))
  | exp => Complex.exp? (.ofReal x)
  | log => Complex.log? (.ofReal x)
  | abs => some (.ofReal (if x < 0 then -x else x))
  | floor => some (.ofReal x.floor)
  | ceiling => some (.ofReal x.ceil)
  | re => some (.ofReal x)
  | derivative => none
  | named _ => none

def at? (f : Function) (z : Complex) : Option Complex :=
  if z.im = 0 then f.atReal? z.re
  else match f with
    | exp => z.exp?
    | log => z.log?
    | abs => some (.ofReal z.norm)
    | re => some (.ofReal z.re)
    | _ => none

end Function

namespace Expr

mutual

def approximate? : Expr → Option Complex
  | scalar c => c.finite?.map .ofReal
  | symbol _ => none
  | imaginary => some ⟨0, 1⟩
  | pi => some (.ofReal Elementary.pi)
  | euler => Complex.exp? (.ofReal 1)
  | sum ts => (approximateAll? ts).map fun zs => zs.foldl .add (.ofReal 0)
  | product fs => (approximateAll? fs).map fun zs => zs.foldl .mul (.ofReal 1)
  | power b e =>
    match b.approximate?, e.approximate? with
    | some z, some w => z.pow? w
    | _, _ => none
  | apply f es =>
    match approximateAll? es with
    | some [z] => f.at? z
    | _ => none

def approximateAll? : List Expr → Option (List Complex)
  | [] => some []
  | e :: es =>
    match e.approximate?, approximateAll? es with
    | some z, some zs => some (z :: zs)
    | _, _ => none

end

def scale (e : Expr) : Rat :=
  (e.terms.filterMap approximate?).foldl (fun q z => q + z.norm) 0

/-- Differences below this part of what they are taken of count as nothing. -/
def tolerance : Rat := twoTo (-320)

def value? (e : Expr) : Option Complex :=
  e.approximate?.map fun z =>
    let bound := tolerance * e.scale
    let clear (q : Rat) : Rat := if -bound < q ∧ q < bound then 0 else q
    ⟨clear z.re, clear z.im⟩

end Expr

end GraphBlock.Algebra
