import GraphBlock.Algebra.Complex
import GraphBlock.Algebra.Expr

namespace GraphBlock.Algebra.Decimals

open scoped GraphBlock.Powers

def mantissa (q : Rat) : Nat × Int :=
  let n := q.num.natAbs
  let zeros := (removeFactor 2 (n.log2 + 1) n).1
  (n / 2 ^ zeros, zeros - (q.den.log2 : Int))

def cut (bits : Nat) (n : Nat) (e : Int) : Nat × Int :=
  let excess := n.log2 + 1 - bits
  (n / 2 ^ excess, e + excess)

def squarings (bits : Nat) :
    (limit : Nat) → (n : Nat) → (result base : Nat × Int) → Nat × Int
  | 0, _, result, _ => result
  | limit + 1, n, result, base =>
    let result :=
      if n % 2 = 1 then cut bits (result.1 * base.1) (result.2 + base.2) else result
    if n ≤ 1 then result
    else squarings bits limit (n / 2) result (cut bits (base.1 * base.1) (2 * base.2))

def largePower (precision : Nat) (q : Rat) (n : Nat) : Rat :=
  let (m, e) := mantissa q
  if m = 1 then twoTo (e * n)
  else if (m.log2 + 1) * n < 1000 then roundTo precision ((m ^ n : Nat) * twoTo (e * n))
  else
    let bits := precision + 4 * (n.log2 + 1) + 4
    let (m, e) := squarings bits (n.log2 + 1) n (1, 0) (m, e)
    roundTo precision (m * twoTo e)

def naturalPower (precision : Nat) (q : Rat) (n : Nat) : Rat :=
  match n with
  | 0 => 1
  | 1 => roundTo precision q
  | 2 => roundTo precision (q * q)
  | n =>
    let magnitude := largePower precision (if q < 0 then -q else q) n
    if q < 0 ∧ n % 2 = 1 then -magnitude else magnitude

def wholePower (precision : Nat) (q : Rat) : Int → Rat
  | .ofNat n => naturalPower precision q n
  | .negSucc 0 => roundTo precision q⁻¹
  | .negSucc n => roundTo precision (naturalPower (precision + 5) q (n + 1))⁻¹

def realPower? (precision : Nat) (q r : Rat) : Option Rat :=
  if r.den = 1 then some (wholePower precision q r.num)
  else if r = mkRat 1 2 then some (roundTo precision (Elementary.sqrt q))
  else if r.den = 2 then
    some (wholePower precision (roundTo (precision + 10) (Elementary.sqrt q)) r.num)
  else
    let l := roundTo (precision + 10) (Elementary.log q)
    (Elementary.exp? (r * l)).map (roundTo precision)

def complexPower? (precision : Nat) (q r : Rat) : Option (Rat × Rat) :=
  (realPower? (precision + 10) (-q) r).map fun m =>
    if r.den = 2 then
      let m := roundTo precision m
      (0, if r.num % 4 = 1 then m else -m)
    else
      let turn := Elementary.pi * r
      (roundTo precision (m * Elementary.cos turn), roundTo precision (m * Elementary.sin turn))

end GraphBlock.Algebra.Decimals
