import GraphBlock.Text.Basic

namespace GraphBlock

def natText (n : Nat) : Text := Nat.toDigits 10 n

def intText : Int → Text
  | .ofNat n => natText n
  | .negSucc n => '-' :: natText (n + 1)

/-- A way to write decimals: exponents from `low` up to but not including `high` are written with
the point in place, all others after the digits. -/
structure Layout where
  low : Int
  high : Int
  exponentDigits : Nat
  keepsPoint : Bool
  deriving DecidableEq, Repr

namespace Layout

def padded (width : Nat) (n : Nat) : Text :=
  List.replicate (width - (natText n).length) '0' ++ natText n

def write (l : Layout) (digits : Text) (exponent : Int) : Text :=
  if exponent < l.low ∨ l.high ≤ exponent then
    let point : Text := match digits.drop 1 with
      | [] => if l.keepsPoint then ".0" else ""
      | tail => '.' :: tail
    digits.take 1 ++ point ++ 'e' :: (if exponent < 0 then '-' else '+') ::
      padded l.exponentDigits exponent.natAbs
  else if exponent < 0 then
    "0." ++ List.replicate (exponent.natAbs - 1) '0' ++ digits
  else
    let whole := exponent.toNat + 1
    let tail : Text := match digits.drop whole with
      | [] => ['0']
      | tail => tail
    digits.take whole ++ List.replicate (whole - digits.length) '0' ++ '.' :: tail

end Layout

end GraphBlock
