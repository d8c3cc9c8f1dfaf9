import GraphBlock.Algebra.Latex.Formula

namespace GraphBlock.Algebra.Latex

inductive Terminal
  | plus
  | minus
  | times
  | slash
  | caret
  | underscore
  | comma
  | bar
  | openBrace
  | closeBrace
  | openParenthesis
  | closeParenthesis
  | openBracket
  | closeBracket
  | openFloor
  | closeFloor
  | openCeiling
  | closeCeiling
  | infinity
  | fraction
  | root
  | function (f : Function)
  | logarithm
  | decimalLogarithm
  /-- A function that is read but never unambiguous, as its name begins with that of another. -/
  | hyperbolic
  | relation (r : Relation)
  deriving DecidableEq, Repr

namespace Terminal

def spellings : List (Terminal × List String) :=
  [(plus, ["+"]), (minus, ["-"]), (times, ["*", "\\times", "\\cdot"]), (slash, ["/", "\\div"]),
    (caret, ["^"]), (underscore, ["_"]), (comma, [","]), (bar, ["|"]),
    (openBrace, ["\x7b"]), (closeBrace, ["\x7d"]), (openParenthesis, ["("]),
    (closeParenthesis, [")"]), (openBracket, ["["]), (closeBracket, ["]"]),
    (openFloor, ["\\lfloor"]), (closeFloor, ["\\rfloor"]), (openCeiling, ["\\lceil"]),
    (closeCeiling, ["\\rceil"]), (infinity, ["\\infty"]),
    (fraction, ["\\frac", "\\dfrac", "\\tfrac"]), (root, ["\\sqrt"]),
    (function .sin, ["\\sin"]), (function .cos, ["\\cos"]), (function .tan, ["\\tan"]),
    (function .asin, ["\\arcsin"]), (function .acos, ["\\arccos"]),
    (function .atan, ["\\arctan"]), (function .exp, ["\\exp"]), (function .log, ["\\ln"]),
    (logarithm, ["\\log"]), (decimalLogarithm, ["\\lg"]),
    (hyperbolic, ["\\sinh", "\\cosh", "\\tanh"]),
    (relation .less, ["<"]), (relation .greater, [">"]), (relation .equal, ["="]),
    (relation .atMost, ["\\leqslant", "\\leq", "\\le"]),
    (relation .atLeast, ["\\geqslant", "\\geq", "\\ge"]),
    (relation .unequal, ["\\neq", "\\ne"])]

end Terminal

def spelled? (spellings : List String) (t : Text) : Option Nat :=
  (spellings.find? fun s => s.toList.isPrefixOf t).map (·.length)

def ignored? (t : Text) : Option Nat :=
  match t.takeWhile (· ∈ " \t\r\n".toList) with
  | [] => spelled? ["\\left", "\\right", "\\quad", "\\qquad", "\\,", "\\;", "\\:", "\\!"] t
  | blanks => some blanks.length

def greekNames : List String :=
  ["alpha", "beta", "gamma", "delta", "epsilon", "varepsilon", "zeta", "eta", "theta", "vartheta",
    "kappa", "lambda", "mu", "nu", "xi", "rho", "varrho", "tau", "upsilon", "phi", "varphi", "chi",
    "psi", "omega"]

def greek? : Text → Option (Nat × Text)
  | '\\' :: t =>
    (greekNames.find? fun s => s.toList.isPrefixOf t).map fun s =>
      (s.length + 1, if "var".toList.isPrefixOf s.toList then s.toList.drop 3 else s.toList)
  | _ => none

def letter? : Text → Option (Nat × Text)
  | [] => none
  | c :: t => if c.isAlpha then some (1, [c]) else greek? (c :: t)

/-- What stands between the braces of a subscript: one letter or digit, letters, or, below a Latin
letter, a Greek one. -/
def bracedSubscript? (latin : Bool) (body : Text) : Option Text :=
  match body with
  | [] => none
  | [c] => if c.isAlphanum then some [c] else none
  | '\\' :: _ =>
    match greek? body with
    | some (n, name) => if latin && n = body.length then some name else none
    | none => none
  | letters => if letters.all Char.isAlpha then some letters else none

def subscript? (latin : Bool) : Text → Option (Nat × Text)
  | '_' :: '{' :: t =>
    match Text.breakAt? '}' t with
    | some (body, _) => (bracedSubscript? latin body).map (body.length + 3, ·)
    | none => none
  | '_' :: '\\' :: t =>
    if latin then (greek? ('\\' :: t)).map fun (n, name) => (n + 1, name) else none
  | '_' :: c :: _ => if c.isAlphanum then some (2, [c]) else none
  | _ => none

abbrev Spans := List (Nat × Formula)

namespace Spans

/-- Two formulas of one length make it ambiguous. -/
def insert (n : Nat) (f : Formula) : Spans → Spans
  | [] => [(n, f)]
  | (m, g) :: rest =>
    if n < m then (n, f) :: (m, g) :: rest
    else if n = m then (m, .ambiguous) :: rest
    else (m, g) :: insert n f rest

def ofList (fs : List (Nat × Formula)) : Spans := fs.foldl (fun s (n, f) => s.insert n f) []

def shift (k : Nat) (s : List (Nat × α)) : List (Nat × α) := s.map fun (n, a) => (n + k, a)

end Spans

structure Lexeme where
  isEnd : Bool
  terminals : List (Nat × Terminal)
  digits : Spans
  letters : Spans
  symbols : Spans
  numbers : Spans

namespace Lexeme

def none : Lexeme := ⟨false, [], [], [], [], []⟩

def symbolsOf (t : Text) : Spans :=
  match letter? t with
  | .none => []
  | some (n, name) =>
    let subscripted := match subscript? (n = 1) (t.drop n) with
      | some (m, s) => [(n + m, .symbol (name ++ ['_', '{'] ++ s ++ ['}']))]
      | .none => []
    (n, .symbol name) :: subscripted

def numbersOf (t : Text) : Spans :=
  match t.takeWhile Char.isDigit with
  | [] => []
  | whole =>
    match t.dropWhile Char.isDigit with
    | '.' :: rest =>
      let fraction := rest.takeWhile Char.isDigit
      [(whole.length + 1 + fraction.length, .decimal whole fraction)]
    | _ => [(whole.length, .integer whole)]

def here (t : Text) : Lexeme where
  isEnd := t.isEmpty
  terminals := Terminal.spellings.filterMap fun (x, s) => (spelled? s t).map (·, x)
  digits := match t with
    | [] => []
    | c :: _ => if c.isDigit then [(1, .integer [c])] else []
  letters := match letter? t with
    | some (n, name) => [(n, .symbol name)]
    | .none => []
  symbols := symbolsOf t
  numbers := numbersOf t

def orAfter (a : Lexeme) (k : Nat) (b : Lexeme) : Lexeme where
  isEnd := a.isEnd || b.isEnd
  terminals := a.terminals ++ Spans.shift k b.terminals
  digits := a.digits ++ Spans.shift k b.digits
  letters := a.letters ++ Spans.shift k b.letters
  symbols := a.symbols ++ Spans.shift k b.symbols
  numbers := a.numbers ++ Spans.shift k b.numbers

end Lexeme

end GraphBlock.Algebra.Latex
