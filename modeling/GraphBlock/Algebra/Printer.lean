import GraphBlock.Algebra.Statement
import GraphBlock.Latex

/-!
Writing statements in plain text: quotients with one slash, and parentheses only where an expression
binds less tightly than its place asks for.
-/

namespace GraphBlock.Algebra

open GraphBlock.Latex (Signature)

inductive Atom
  | scalar (c : Scalar)
  | imaginary
  | pi
  | euler
  | truth (b : Bool)

def signature : Signature := ⟨Atom, Function, Relation⟩

abbrev Tree := GraphBlock.Latex.Expr signature

mutual

def Expr.toTree : Expr → Tree
  | scalar c => .atom (.scalar c)
  | symbol name => .symbol name
  | imaginary => .atom .imaginary
  | pi => .atom .pi
  | euler => .atom .euler
  | sum es => .sum (toTrees es)
  | product es => .product (toTrees es)
  | power b x => .power b.toTree x.toTree
  | apply f es => .apply f (toTrees es)

def Expr.toTrees : List Expr → List Tree
  | [] => []
  | e :: es => e.toTree :: toTrees es

end

def Statement.toTree : Statement → Tree
  | value e => e.toTree
  | truth b => .atom (.truth b)
  | related r a b => .relation r a.toTree b.toTree

namespace Tree

def rat (q : Rat) : Tree := .atom (.scalar (.exact q))

def int (n : Int) : Tree := rat n

def rational? : Tree → Option Rat
  | .atom (.scalar (.exact q)) => some q
  | _ => none

def ofFactors : List Tree → Tree
  | [] => int 1
  | [f] => f
  | fs => .product fs

def opposite? : Tree → Option Tree
  | .atom (.scalar c) => if c.isNegative then some (.atom (.scalar c.neg)) else none
  | .product (.atom (.scalar c) :: fs) =>
    if c.isNegative then
      some (if c = .exact (-1) then ofFactors fs else .product (.atom (.scalar c.neg) :: fs))
    else none
  | _ => none

def above : Tree → List Tree
  | .atom (.scalar (.exact q)) => if q.num = 1 then [] else [int q.num]
  | .power b x => if (opposite? x).isSome then [] else [.power b x]
  | e => [e]

def isLone : Tree → Bool
  | .power _ _ | .product _ => true
  | _ => false

/-- What a factor has below the line, and whether it is kept apart there, as a power or product that
is itself a base. -/
def below : Tree → List (Tree × Bool)
  | .atom (.scalar (.exact q)) => if q.den = 1 then [] else [(int q.den, false)]
  | .power b x => (opposite? x).toList.map fun y =>
    if rational? y = some 1 then (b, isLone b) else (.power b y, false)
  | _ => []

def leadsNegative : List Tree → Bool
  | .atom (.scalar c) :: _ => c.isNegative
  | _ => false

def unsigned : List Tree → List Tree
  | .atom (.scalar c) :: fs =>
    if c.isNegative then if c = .exact (-1) then fs else .atom (.scalar c.neg) :: fs
    else .atom (.scalar c) :: fs
  | fs => fs

def Below (s e : Tree) : Prop := s.size ≤ e.size ∧ s.symbols ⊆ e.symbols

theorem Below.refl (e : Tree) : Below e e := ⟨Nat.le_refl _, fun _ h => h⟩

theorem below_ofFactors (a : Atom) (fs : List Tree) :
    Below (ofFactors fs) (.product (.atom a :: fs)) := by
  cases fs with
  | nil =>
    refine ⟨?_, fun _ h => h⟩
    simp only [ofFactors, int, rat, Latex.Expr.size, Latex.Expr.sizeAll]
    omega
  | cons f fs =>
    cases fs with
    | nil =>
      refine ⟨?_, ?_⟩
      · simp only [ofFactors, Latex.Expr.size, Latex.Expr.sizeAll]
        omega
      · simp [ofFactors, Latex.Expr.symbols, Latex.Expr.symbolsOfAll]
    | cons g gs =>
      refine ⟨?_, fun _ h => h⟩
      simp only [ofFactors, Latex.Expr.size, Latex.Expr.sizeAll]
      omega

theorem below_of_opposite? {x y : Tree} (h : opposite? x = some y) : Below y x := by
  rw [opposite?.eq_def] at h
  split at h
  · obtain ⟨-, h⟩ := Option.ite_none_right_eq_some.mp h
    rw [← Option.some.inj h]
    exact .refl _
  · obtain ⟨-, h⟩ := Option.ite_none_right_eq_some.mp h
    rw [← Option.some.inj h]
    split
    · exact below_ofFactors _ _
    · exact .refl _
  · cases h

theorem below_of_mem_above {s e : Tree} (h : s ∈ above e) : Below s e := by
  rw [above.eq_def] at h
  split at h
  · split at h
    · cases h
    · rw [List.mem_singleton.mp h]
      exact .refl _
  · split at h
    · cases h
    · rw [List.mem_singleton.mp h]
      exact .refl _
  · rw [List.mem_singleton.mp h]
    exact .refl _

theorem below_of_mem_below {s : Tree × Bool} {e : Tree} (h : s ∈ below e) : Below s.1 e := by
  rw [below.eq_def] at h
  split at h
  · split at h
    · cases h
    · rw [List.mem_singleton.mp h]
      exact .refl _
  · next b x =>
    obtain ⟨y, hy, rfl⟩ := List.mem_map.mp h
    obtain ⟨hsize, hsymbols⟩ := below_of_opposite? (Option.mem_toList.mp hy)
    split
    · refine ⟨?_, List.subset_append_left _ _⟩
      simp only [Latex.Expr.size]
      omega
    · refine ⟨?_, ?_⟩
      · simp only [Latex.Expr.size]
        omega
      · intro name hname
        rcases List.mem_append.mp hname with hname | hname
        · exact List.mem_append_left _ hname
        · exact List.mem_append_right _ (hsymbols hname)
  · cases h

theorem part_of_mem {f : Tree} {fs : List Tree} (h : f ∈ fs) :
    f.size < (Latex.Expr.product fs).size ∧ f.symbols ⊆ (Latex.Expr.product fs).symbols :=
  ⟨Nat.lt_succ_of_le (Latex.Expr.size_le_of_mem h), Latex.Expr.symbols_subset_of_mem h⟩

theorem part_of_mem_unsigned {f : Tree} {fs : List Tree} (h : f ∈ unsigned fs) :
    f.size < (Latex.Expr.product fs).size ∧ f.symbols ⊆ (Latex.Expr.product fs).symbols := by
  rw [unsigned.eq_def] at h
  split at h
  · next c fs =>
    have hfirst := part_of_mem (List.mem_cons_self (a := .atom (.scalar c)) (l := fs))
    split at h
    · split at h
      · exact part_of_mem (List.mem_cons_of_mem _ h)
      · rcases List.mem_cons.mp h with rfl | h
        · exact hfirst
        · exact part_of_mem (List.mem_cons_of_mem _ h)
    · exact part_of_mem h
  · exact part_of_mem h

theorem part_of_mem_above {s : Tree} {fs : List Tree} (h : s ∈ (unsigned fs).flatMap above) :
    s.size < (Latex.Expr.product fs).size ∧ s.symbols ⊆ (Latex.Expr.product fs).symbols := by
  obtain ⟨f, hf, hs⟩ := List.mem_flatMap.mp h
  obtain ⟨hsize, hsymbols⟩ := part_of_mem_unsigned hf
  obtain ⟨hle, hsub⟩ := below_of_mem_above hs
  exact ⟨Nat.lt_of_le_of_lt hle hsize, fun _ hname => hsymbols (hsub hname)⟩

theorem part_of_mem_below {s : Tree × Bool} {fs : List Tree}
    (h : s ∈ (unsigned fs).flatMap below) :
    s.1.size < (Latex.Expr.product fs).size ∧ s.1.symbols ⊆ (Latex.Expr.product fs).symbols := by
  obtain ⟨f, hf, hs⟩ := List.mem_flatMap.mp h
  obtain ⟨hsize, hsymbols⟩ := part_of_mem_unsigned hf
  obtain ⟨hle, hsub⟩ := below_of_mem_below hs
  exact ⟨Nat.lt_of_le_of_lt hle hsize, fun _ hname => hsymbols (hsub hname)⟩

end Tree

namespace Printer

open GraphBlock.Algebra.Tree

/-! How tightly an expression binds. -/

def sumLevel : Nat := 40
def productLevel : Nat := 50
def powerLevel : Nat := 60
def atomLevel : Nat := 100

def scalarLevel (c : Scalar) : Nat :=
  if c.isNegative then sumLevel
  else match c with
    | .exact q => if q.den = 1 then atomLevel else productLevel
    | _ => atomLevel

def binding : Tree → Nat
  | .atom (.scalar c) => scalarLevel c
  | .sum (_ :: _) => sumLevel
  | .product fs => if leadsNegative fs then sumLevel else productLevel
  | .power _ _ => powerLevel
  | .relation _ _ _ => 0
  | _ => atomLevel

def grouped (t : Text) : Text := '(' :: t ++ ")"

def joined (separator : Text) (ts : List Text) : Text := List.intercalate separator ts

def within {e : Tree} (print : e.Part → Text) (level : Nat) (part : e.Part) : Text :=
  if binding part.expr ≤ level then grouped (print part) else print part

def atomText (alone : Bool) : Atom → Text
  | .scalar (.decimal q precision) => Scalar.decimalText alone q precision
  | .scalar c => c.text
  | .imaginary => "I"
  | .pi => "pi"
  | .euler => "E"
  | .truth true => "True"
  | .truth false => "False"

def continued (t : Text) : Text :=
  match t with
  | '-' :: rest => " - " ++ rest
  | t => " + " ++ t

def sumText (terms : List Tree) (print : (Latex.Expr.sum terms).Part → Text) : Text :=
  let texts := terms.attach.map fun f =>
    within print (sumLevel - 1) ⟨f.1, (part_of_mem f.2).1, (part_of_mem f.2).2⟩
  match texts with
  | [] => "0"
  | t :: ts => t ++ ts.flatMap continued

def quotient (above below : List Text) : Text :=
  let numerator : Text := if above.isEmpty then "1" else joined "*" above
  match below with
  | [] => numerator
  | [t] => numerator ++ '/' :: t
  | ts => numerator ++ "/(" ++ joined "*" ts ++ ")"

def productText (factors : List Tree) (print : (Latex.Expr.product factors).Part → Text) : Text :=
  let level := if leadsNegative factors then sumLevel else productLevel
  let above := ((unsigned factors).flatMap above).attach.map fun s =>
    within print level ⟨s.1, (part_of_mem_above s.2).1, (part_of_mem_above s.2).2⟩
  let below := ((unsigned factors).flatMap below).attach.map fun s =>
    let part := ⟨s.1.1, (part_of_mem_below s.2).1, (part_of_mem_below s.2).2⟩
    if s.1.2 then grouped (print part) else within print level part
  if leadsNegative factors then '-' :: quotient above below else quotient above below

def powerText (base exponent : Tree) (print : (Latex.Expr.power base exponent).Part → Text) :
    Text :=
  let base : (Latex.Expr.power base exponent).Part :=
    ⟨base, by simp only [Latex.Expr.size]; omega, List.subset_append_left _ _⟩
  let raised : (Latex.Expr.power base.expr exponent).Part :=
    ⟨exponent, by simp only [Latex.Expr.size]; omega, List.subset_append_right _ _⟩
  if rational? exponent = some (mkRat 1 2) then "sqrt(" ++ print base ++ ")"
  else if rational? exponent = some (mkRat (-1) 2) then "1/sqrt(" ++ print base ++ ")"
  else if rational? exponent = some (-1) then "1/" ++ within print powerLevel base
  else within print powerLevel base ++ "**" ++ within print powerLevel raised

def applicationText (f : Function) (arguments : List Tree)
    (print : (Latex.Expr.apply (S := signature) f arguments).Part → Text) : Text :=
  let texts := arguments.attach.map fun e =>
    print ⟨e.1, (part_of_mem e.2).1, (part_of_mem e.2).2⟩
  f.name ++ '(' :: joined ", " texts ++ ")"

def relationText (r : Relation) (left right : Text) : Text :=
  match r with
  | .less => left ++ " < " ++ right
  | .greater => left ++ " > " ++ right
  | .atMost => left ++ " <= " ++ right
  | .atLeast => left ++ " >= " ++ right
  | .equal => "Eq(" ++ left ++ ", " ++ right ++ ")"
  | .unequal => "Ne(" ++ left ++ ", " ++ right ++ ")"

def otherText (level : Nat) : (e : Tree) → (e.Part → Text) → Text
  | .atom a, _ => atomText (level = 1) a
  | .symbol name, _ => name
  | .sum terms, print => sumText terms print
  | .product factors, print => productText factors print
  | .power base exponent, print => powerText base exponent print
  | .apply f arguments, print => applicationText f arguments print
  | .relation r left right, print =>
    relationText r
      (print ⟨left, by simp only [Latex.Expr.size]; omega, List.subset_append_left _ _⟩)
      (print ⟨right, by simp only [Latex.Expr.size]; omega, List.subset_append_right _ _⟩)

end Printer

def printer : Latex.Printer signature := ⟨fun _ => Printer.powerText, Printer.otherText⟩

end GraphBlock.Algebra
