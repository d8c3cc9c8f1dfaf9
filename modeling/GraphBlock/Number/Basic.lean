import GraphBlock.Number.Shortest

namespace GraphBlock

/-- A place on the extended number line, in units of `2 ^ -1074`. -/
inductive Place
  | least
  | units (n : Int)
  | greatest
  deriving DecidableEq, Repr

def Place.le : Place → Place → Bool
  | least, _ => true
  | _, greatest => true
  | units a, units b => a ≤ b
  | _, _ => false

inductive Number
  | int (n : Int)
  | float (x : Binary64)
  deriving DecidableEq, Repr

namespace Number

def place? : Number → Option Place
  | int n => some (.units (n * Binary64.one))
  | float .nan => none
  | float (.infinite true) => some .least
  | float (.infinite false) => some .greatest
  | float (.finite negative m _) => some (.units (Binary64.signed negative m))

/-- Both comparisons are false where one side is not a number. -/
def le (a b : Number) : Bool :=
  match a.place?, b.place? with
  | some p, some q => p.le q
  | _, _ => false

def lt (a b : Number) : Bool :=
  match a.place?, b.place? with
  | some p, some q => !q.le p
  | _, _ => false

@[simp] theorem le_int (a b : Int) : (int a).le (int b) = decide (a ≤ b) := by
  have h : (0 : Int) < Binary64.one := Int.natCast_pos.mpr Binary64.one_pos
  simp only [le, place?, Place.le, decide_eq_decide]
  exact ⟨fun hab => Int.le_of_mul_le_mul_right hab h, fun hab =>
    Int.mul_le_mul_of_nonneg_right hab (Int.le_of_lt h)⟩

@[simp] theorem lt_int (a b : Int) : (int a).lt (int b) = decide (a < b) := by
  have h : (0 : Int) < Binary64.one := Int.natCast_pos.mpr Binary64.one_pos
  simp only [lt, place?, Place.le]
  rw [← decide_not, decide_eq_decide, Int.not_le]
  exact ⟨fun hab => Int.lt_of_mul_lt_mul_right hab (Int.le_of_lt h), fun hab =>
    Int.mul_lt_mul_of_pos_right hab h⟩

def toBinary64 : Number → Binary64
  | int n => .ofInt n
  | float x => x

def add : Number → Number → Number
  | int a, int b => int (a + b)
  | a, b => float (a.toBinary64.add b.toBinary64)

def text : Number → Text
  | int n => intText n
  | float x => x.text

end Number

end GraphBlock
