import GraphBlock.Text.Quoted

/-!
The plain spelling of LaTeX. An algebra system from outside reads a formula, with a second backend
to fall back on, and writes it; the library writes its powers with carets. What the system does is
left open.
-/

namespace GraphBlock.Latex

structure Signature where
  Atom : Type
  Function : Type
  Relation : Type

/-- Expression trees. A quotient is a product with a power in it. -/
inductive Expr (S : Signature)
  | atom (a : S.Atom)
  | symbol (name : Text)
  | sum (terms : List (Expr S))
  | product (factors : List (Expr S))
  | power (base exponent : Expr S)
  | apply (f : S.Function) (arguments : List (Expr S))
  | relation (r : S.Relation) (left right : Expr S)

variable {S : Signature}

namespace Expr

mutual

def size : Expr S → Nat
  | atom _ | symbol _ => 1
  | sum es | product es | apply _ es => sizeAll es + 1
  | power a b | relation _ a b => a.size + b.size + 1

def sizeAll : List (Expr S) → Nat
  | [] => 0
  | e :: es => e.size + sizeAll es

end

mutual

def symbols : Expr S → List Text
  | atom _ => []
  | symbol name => [name]
  | sum es | product es | apply _ es => symbolsOfAll es
  | power a b | relation _ a b => a.symbols ++ b.symbols

def symbolsOfAll : List (Expr S) → List Text
  | [] => []
  | e :: es => e.symbols ++ symbolsOfAll es

end

theorem size_le_of_mem {e : Expr S} {es : List (Expr S)} (h : e ∈ es) : e.size ≤ sizeAll es := by
  induction es with
  | nil => cases h
  | cons f es ih =>
    rw [sizeAll]
    cases h with
    | head => omega
    | tail _ h =>
      have := ih h
      omega

theorem symbols_subset_of_mem {e : Expr S} {es : List (Expr S)} (h : e ∈ es) :
    e.symbols ⊆ symbolsOfAll es := by
  induction es with
  | nil => cases h
  | cons f es ih =>
    rw [symbolsOfAll]
    cases h with
    | head => exact List.subset_append_left _ _
    | tail _ h => exact fun name hname => List.mem_append_right _ (ih h hname)

/-- A smaller expression without further symbols. -/
structure Part (e : Expr S) where
  expr : Expr S
  size_lt : expr.size < e.size
  symbols_subset : expr.symbols ⊆ e.symbols

end Expr

/-- The methods by which a printer writes an expression at some level of nesting. They may have
parts of the expression printed. -/
structure Printer (S : Signature) where
  power : (level : Nat) → (base exponent : Expr S) → ((Expr.power base exponent).Part → Text) → Text
  other : (level : Nat) → (e : Expr S) → (e.Part → Text) → Text

namespace Printer

def print (p : Printer S) (level : Nat) : Expr S → Text
  | .power base exponent =>
    p.power level base exponent fun part => p.print (level + 1) part.expr
  | e => p.other level e fun part => p.print (level + 1) part.expr
termination_by e => e.size
decreasing_by all_goals exact part.size_lt

def text (p : Printer S) (e : Expr S) : Text := p.print 1 e

/-- The printer with powers written as the graphing engine expects them. -/
def withCarets (p : Printer S) : Printer S :=
  { p with power := fun level base exponent print =>
      Text.replacePair '*' '*' "^" (p.power level base exponent print) }

end Printer

/-- Why a backend failed, by the kind of exception and its text. -/
structure Failure where
  kind : Text
  text : Text
  deriving DecidableEq, Repr

inductive Outcome (S : Signature)
  | expression (e : Expr S)
  | foreign (type : Text)

structure System (S : Signature) where
  lark : Text → Except Failure (Outcome S)
  antlr : Text → Except Failure (Expr S)
  printer : Printer S

structure ParseError where
  tex : Text
  lark : Failure
  antlr : Failure
  deriving DecidableEq, Repr

def ParseError.message (e : ParseError) : Text :=
  "Failed to parse LaTeX " ++ Text.quoted e.tex ++ ": lark: " ++ e.lark.kind ++ ": " ++
    e.lark.text ++ "; antlr: " ++ e.antlr.kind ++ ": " ++ e.antlr.text

namespace System

variable (s : System S)

/-- The expression of the first backend; another result counts as a failure. -/
def first (tex : Text) : Except Failure (Expr S) := do
  match ← s.lark tex with
  | .expression e => return e
  | .foreign type =>
    throw ⟨"TypeError", "lark backend returned non-SymPy result (" ++ type ++ ")"⟩

def parse (tex : Text) : Except ParseError (Expr S) :=
  match s.first tex with
  | .ok e => .ok e
  | .error lark => (s.antlr tex).mapError fun antlr => ⟨tex, lark, antlr⟩

def plain (tex : Text) : Except ParseError Text := (s.parse tex).map s.printer.withCarets.text

end System

end GraphBlock.Latex
