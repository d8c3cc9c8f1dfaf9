import GraphBlock.Algebra.Rounding
import GraphBlock.Algebra.Expr

namespace GraphBlock.Algebra

open scoped GraphBlock.Powers

/-- An integer times reduced roots; the last root is drawn from all bases whose exponents share no
divisor with the index. -/
structure Radical where
  outside : Nat
  roots : List (Nat × Rat)
  deriving Repr

namespace Radical

structure Split where
  outside : Nat := 1
  reduced : List (Nat × Rat) := []
  inside : List (Nat × Nat) := []

def Split.add (p q : Nat) (s : Split) (base times : Nat) : Split :=
  let exponent := times * p
  let rest := exponent % q
  let g := rest.gcd q
  let s := { s with outside := s.outside * base ^ (exponent / q) }
  if rest = 0 then s
  else if g = 1 then { s with inside := s.inside ++ [(base, rest)] }
  else { s with reduced := s.reduced ++ [(base, mkRat (rest / g) (q / g))] }

/-- The power `n ^ (p / q)` of a number above one, for a reduced positive fraction. Nothing where
the power is its own reduced form. -/
def ofPower? (n p q : Nat) : Option Radical :=
  match exactRoot? q n with
  | some r => some ⟨r ^ p, []⟩
  | none =>
    let s := (factors n).foldl (fun (s : Split) (base, times) => s.add p q base times) {}
    let g : Nat := (s.inside.map (·.2)).foldl Nat.gcd 0
    let inside : Nat := (s.inside.map fun (base, times) => base ^ (times / g)).foldl (· * ·) 1
    if inside = n ∧ s.outside = 1 ∧ s.reduced = [] then none
    else
      let last := if inside = 1 then [] else [(inside, mkRat g q)]
      some ⟨s.outside, s.reduced ++ last⟩

end Radical

end GraphBlock.Algebra
