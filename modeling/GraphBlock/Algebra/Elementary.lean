import GraphBlock.Algebra.Rounding

namespace GraphBlock.Algebra.Elementary

open scoped GraphBlock.Powers

def places : Nat := 640

def accuracy : Nat := 512

def unit : Int := 2 ^ places

def toUnits (q : Rat) : Int := (q * unit).floor

def ofUnits (n : Int) : Rat := mkRat n (2 ^ places)

def mulUnits (a b : Int) : Int := a * b / unit

def arcSeries (ratio : Int) : (limit : Nat) → (k : Nat) → (term : Int) → Int
  | 0, _, _ => 0
  | limit + 1, k, term =>
    if term.natAbs ≤ 1 then 0
    else term / (2 * k + 1 : Nat) + arcSeries ratio limit (k + 1) (mulUnits term ratio)

def longest : Nat := 2 * places

def arctanSeries (x : Int) : Int := arcSeries (-mulUnits x x) longest 0 x

def artanhSeries (x : Int) : Int := arcSeries (mulUnits x x) longest 0 x

/-- `16 arctan (1/5) - 4 arctan (1/239)`. -/
def piUnits : Int := 16 * arctanSeries (unit / 5) - 4 * arctanSeries (unit / 239)

def pi : Rat := ofUnits piUnits

def logTwoUnits : Int := 2 * artanhSeries (unit / 3)

def logTwo : Rat := ofUnits logTwoUnits

def expSeries (x : Int) : (limit : Nat) → (k : Nat) → (term : Int) → Int
  | 0, _, _ => 0
  | limit + 1, k, term =>
    if term.natAbs ≤ 1 then 0
    else term + expSeries x limit (k + 1) (mulUnits term x / (k + 1 : Nat))

def waveSeries (square : Int) : (limit : Nat) → (k : Nat) → (term : Int) → Int
  | 0, _, _ => 0
  | limit + 1, k, term =>
    if term.natAbs ≤ 1 then 0
    else term +
      waveSeries square limit (k + 2) (-mulUnits term square / ((k + 1) * (k + 2) : Nat))

def largestArgument : Rat := 2 ^ (20 : Nat)

def exp? (x : Rat) : Option Rat :=
  if largestArgument < x ∨ x < -largestArgument then none
  else
    let k := (x / logTwo + mkRat 1 2).floor
    let r := toUnits (x - k * logTwo)
    some (roundTo accuracy (ofUnits (expSeries r longest 0 unit) * twoTo k))

def log (x : Rat) : Rat :=
  let e := bitLength x
  let m := x * twoTo (-e)
  let (m, e) := if m < mkRat 3 4 then (m * 2, e - 1) else (m, e)
  let series := ofUnits (2 * artanhSeries (toUnits ((m - 1) / (m + 1))))
  roundTo accuracy (series + e * logTwo)

def quarterTurns (x : Rat) : Rat × Int :=
  let k := (2 * x / pi + mkRat 1 2).floor
  (x - k * pi / 2, k)

def sinSeries (r : Rat) : Rat :=
  let x := toUnits r
  ofUnits (waveSeries (mulUnits x x) longest 1 x)

def cosSeries (r : Rat) : Rat :=
  let x := toUnits r
  ofUnits (waveSeries (mulUnits x x) longest 0 unit)

def sin (x : Rat) : Rat :=
  let (r, k) := quarterTurns x
  roundTo accuracy <| match k % 4 with
    | 0 => sinSeries r
    | 1 => cosSeries r
    | 2 => -sinSeries r
    | _ => -cosSeries r

def cos (x : Rat) : Rat :=
  let (r, k) := quarterTurns x
  roundTo accuracy <| match k % 4 with
    | 0 => cosSeries r
    | 1 => -sinSeries r
    | 2 => -cosSeries r
    | _ => sinSeries r

def sqrt (x : Rat) : Rat :=
  let shift := places + (-bitLength x).toNat
  roundTo accuracy (squareRoot shift x)

/-- The inverse tangent, with the argument halved twice by `x / (1 + sqrt (1 + x ^ 2))`. -/
def arctan (x : Rat) : Rat :=
  let half (y : Rat) : Rat := y / (1 + sqrt (1 + y * y))
  let small (y : Rat) : Rat := 4 * ofUnits (arctanSeries (toUnits (half (half y))))
  roundTo accuracy <|
    if 1 < x then pi / 2 - small (1 / x)
    else if x < -1 then -pi / 2 - small (1 / x)
    else small x

def angle (x y : Rat) : Rat :=
  if 0 < x then arctan (y / x)
  else if x < 0 then (if y < 0 then arctan (y / x) - pi else arctan (y / x) + pi)
  else if y < 0 then -pi / 2
  else pi / 2

end GraphBlock.Algebra.Elementary
