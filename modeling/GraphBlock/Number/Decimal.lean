import GraphBlock.Text.Character
import GraphBlock.Number.Binary64

/-!
Reading a decimal number: an optional sign, digits of any script with single underscores between
them, a fraction and an exponent, or the words for infinity and for no number. The result is the
nearest number of the binary64 format.
-/

namespace GraphBlock

open scoped GraphBlock.Powers

namespace Text

/-- The digits at the start of a text, where one underscore may stand between two of them. -/
def digits : Text → List Nat × Text
  | [] => ([], [])
  | c :: t =>
    match digitValue? c with
    | none => ([], c :: t)
    | some d =>
      match t with
      | '_' :: u =>
        match digits u with
        | ([], _) => ([d], '_' :: u)
        | (ds, rest) => (d :: ds, rest)
      | t => (d :: (digits t).1, (digits t).2)

def sign : Text → Bool × Text
  | '-' :: t => (true, t)
  | '+' :: t => (false, t)
  | t => (false, t)

/-- The blanks that may surround a number: the information separators are not among them. -/
def isNumberBlank (c : Char) : Bool := isBlank c && !(0x1C ≤ c.toNat && c.toNat ≤ 0x1F)

end Text

structure Decimal where
  digits : List Nat
  exponent : Int
  deriving DecidableEq, Repr

namespace Decimal

def significand (d : Decimal) : Nat := d.digits.foldl (fun n digit => 10 * n + digit) 0

def exponent? : Text → Option Int
  | [] => some 0
  | c :: t =>
    if c = 'e' ∨ c = 'E' then
      match Text.digits (Text.sign t).2 with
      | ([], _) => none
      | (ds, []) =>
        let n : Nat := significand ⟨ds, 0⟩
        some (if (Text.sign t).1 then -n else n)
      | _ => none
    else none

def read? (t : Text) : Option Decimal :=
  let whole := Text.digits t
  let fraction := match whole.2 with
    | '.' :: u => Text.digits u
    | u => ([], u)
  if whole.1.isEmpty && fraction.1.isEmpty then none
  else (exponent? fraction.2).map fun e => ⟨whole.1 ++ fraction.1, e - fraction.1.length⟩

def order (d : Decimal) : Int := (d.digits.dropWhile (· = 0)).length + d.exponent

/-- The nearest number. Beyond `10 ^ ±400` the answer is known without the digits. -/
def toBinary64 (negative : Bool) (d : Decimal) : Binary64 :=
  if d.significand = 0 ∨ d.order < -400 then .zero negative
  else if 400 < d.order then .infinite negative
  else .ofRatio negative (d.significand * 10 ^ d.exponent.toNat * Binary64.one)
    (10 ^ (-d.exponent).toNat)

end Decimal

namespace Binary64

def read? (t : Text) : Option Binary64 :=
  let (negative, body) := Text.sign (Text.trimBy Text.isNumberBlank t)
  if Text.lower body = "inf".toList ∨ Text.lower body = "infinity".toList then
    some (infinite negative)
  else if Text.lower body = "nan".toList then some nan
  else (Decimal.read? body).map (Decimal.toBinary64 negative)

end Binary64

end GraphBlock
