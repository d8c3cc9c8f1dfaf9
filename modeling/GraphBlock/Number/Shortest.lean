import GraphBlock.Number.Binary64
import GraphBlock.Number.Layout

/-!
The shortest decimal that reads back as a given number, and of several such the nearest.
-/

namespace GraphBlock.Binary64

open scoped GraphBlock.Powers

def scaled (m : Nat) : Nat := m * 5 ^ (1074 : Nat)

def readsBack (m n : Nat) : Bool := roundRatio n (5 ^ (1074 : Nat)) == m

/-- Of the multiples `low` and `low + 1` of `step` around `n`, the better one of those that may be
taken: the nearer one, and of two equally near the even one. -/
def nearer? (n step low : Nat) : (lowReads highReads : Bool) → Option Nat
  | false, false => none
  | true, false => some low
  | false, true => some (low + 1)
  | true, true =>
    let below := n - low * step
    let above := (low + 1) * step - n
    if below < above ∨ (below = above ∧ low % 2 = 0) then some low else some (low + 1)

def onGrid? (m place : Nat) : Option Nat :=
  let step := 10 ^ place
  let low := scaled m / step
  nearer? (scaled m) step low (readsBack m (low * step)) (readsBack m ((low + 1) * step))

/-- The first grid that reads back, from the coarsest place down; at place zero the number itself
is on the grid. -/
def shortestFrom (m place tries : Nat) : Nat × Nat :=
  ((List.range tries).findSome? fun i => (onGrid? m (place - i)).map (·, place - i)).getD
    (scaled m, 0)

/-- Digits and exponent of the shortest decimal of a positive magnitude. Seventeen digits are
always enough. -/
def shortest (m : Nat) : Text × Int :=
  let found := shortestFrom m ((natText (scaled m)).length - 1) 17
  let digits := natText found.1
  (Text.trimBy (· == '0') digits, (digits.length + found.2 : Nat) - 1075)

def layout : Layout := ⟨-4, 16, 2, false⟩

def text : Binary64 → Text
  | nan => "nan"
  | infinite false => "inf"
  | infinite true => "-inf"
  | finite negative m _ =>
    let body : Text := if m = 0 then "0.0" else layout.write (shortest m).1 (shortest m).2
    if negative then '-' :: body else body

end GraphBlock.Binary64
