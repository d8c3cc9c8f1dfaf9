import GraphBlock.Algebra.Latex.Lexeme

/-!
The chart of a formula: for each place of the text, the formulas of each kind that begin there. A
formula consists of what begins at its own place and of formulas that begin later, so the chart is
built from the end of the text. Where two formulas of one kind take up the same part of the text,
that part is ambiguous.
-/

namespace GraphBlock.Algebra.Latex

structure Cell where
  lexeme : Lexeme
  groups : Spans := []
  functions : Spans := []
  cores : Spans := []
  powers : Spans := []
  terms : Spans := []
  sums : Spans := []

abbrev Chart := List Cell

/-- A place of the chart that is being built: what begins at it, and the chart after it. -/
structure Place where
  lexeme : Lexeme
  later : Chart

namespace Place

variable (p : Place)

def lexemeAt : Nat → Lexeme
  | 0 => p.lexeme
  | k + 1 => (p.later[k]?.map Cell.lexeme).getD .none

def marks (x : Terminal) (k : Nat) : List Nat :=
  (p.lexemeAt k).terminals.filterMap fun (n, y) => if x = y then some (k + n) else none

def tokens (kind : Lexeme → Spans) (k : Nat) : Spans := Spans.shift k (kind (p.lexemeAt k))

def after (kind : Cell → Spans) : Nat → Spans
  | 0 => []
  | k + 1 => Spans.shift (k + 1) ((p.later[k]?.map kind).getD [])

def bracketed (left right : Terminal) (k : Nat) : Spans :=
  (p.marks left k).flatMap fun k => (p.after Cell.sums k).flatMap fun (k, f) =>
    (p.marks right k).map (·, f)

def followed (first : Spans) (next : Nat → Spans) (join : Formula → Formula → Formula) : Spans :=
  first.flatMap fun (k, a) => (next k).map fun (n, b) => (n, join a b)

def braces (k : Nat) : Spans := p.bracketed .openBrace .closeBrace k

def fractions : Spans :=
  (p.marks .fraction 0).flatMap fun k =>
    let short (k : Nat) : Spans := p.tokens Lexeme.digits k ++ p.tokens Lexeme.letters k
    followed (p.tokens Lexeme.digits k) (fun k => short k ++ p.braces k) .fraction ++
      followed (p.braces k) (fun k => short k ++ p.braces k) .fraction

def arguments : (limit : Nat) → (k : Nat) → List (Nat × List Formula)
  | 0, _ => []
  | limit + 1, k => (p.after Cell.sums k).flatMap fun (k, f) =>
    (p.marks .closeParenthesis k).map (·, [f]) ++
      (p.marks .comma k).flatMap fun k => (arguments limit k).map fun (n, fs) => (n, f :: fs)

def calls : Spans :=
  p.lexeme.symbols.flatMap fun (k, f) =>
    match f with
    | .symbol name => (p.marks .openParenthesis k).flatMap fun k =>
      (p.arguments p.later.length k).map fun (n, fs) => (n, .call name fs)
    | _ => []

def applications : Spans :=
  p.lexeme.terminals.flatMap fun (k, x) =>
    match x with
    | .function f =>
      let plain := (p.after Cell.sums k).map fun (n, a) => (n, .apply f a)
      let powers := (p.marks .caret k).flatMap fun k =>
        followed (p.after Cell.cores k) (p.after Cell.sums) (.applyPower f)
      if (Formula.inverse? f).isSome then plain ++ powers else plain
    | _ => []

def logarithms : Spans :=
  let natural := (p.marks .logarithm 0).flatMap fun k =>
    (p.after Cell.sums k).map fun (n, a) => (n, .apply .log a)
  let decimal := (p.marks .decimalLogarithm 0).flatMap fun k =>
    (p.after Cell.sums k).map fun (n, a) => (n, .logarithm (.integer ['1', '0']) a)
  let based := (p.marks .logarithm 0).flatMap fun k => (p.marks .underscore k).flatMap fun k =>
    followed (p.tokens Lexeme.digits k ++ p.tokens Lexeme.symbols k ++ p.braces k)
      (p.after Cell.sums) .logarithm
  let hyperbolic := (p.marks .hyperbolic 0).flatMap fun k =>
    (p.after Cell.sums k).map fun (n, _) => (n, .ambiguous)
  natural ++ decimal ++ based ++ hyperbolic

def roots : Spans :=
  (p.marks .root 0).flatMap fun k =>
    (p.braces k).map (fun (n, a) => (n, .squareRoot a)) ++
      followed (p.bracketed .openBracket .closeBracket k) p.braces .root

def enclosures : Spans :=
  (p.bracketed .bar .bar 0).map (fun (n, a) => (n, .apply .abs a)) ++
    (p.bracketed .openFloor .closeFloor 0).map (fun (n, a) => (n, .apply .floor a)) ++
    (p.bracketed .openCeiling .closeCeiling 0).map fun (n, a) => (n, .apply .ceiling a)

def functions : Spans := p.calls ++ p.applications ++ p.logarithms ++ p.roots ++ p.enclosures

def cores : Spans :=
  p.lexeme.symbols ++ p.lexeme.numbers ++ (p.marks .infinity 0).map (·, .infinity) ++ p.braces 0

/-- Extends formulas to the right as often as it goes. What is shorter is complete before it is
extended. -/
def grow (step : Nat → Formula → Spans) : (limit : Nat) → Spans → Spans
  | 0, s => s
  | _, [] => []
  | limit + 1, (n, f) :: rest =>
    (n, f) :: grow step limit ((step n f).foldl (fun s (m, g) => s.insert m g) rest)

def cell : Cell :=
  let limit := p.later.length + 1
  let groups := Spans.ofList (p.bracketed .openParenthesis .closeParenthesis 0)
  let fractions := Spans.ofList p.fractions
  let functions := Spans.ofList p.functions
  let cores := Spans.ofList p.cores
  let bases := Spans.ofList (cores ++ groups ++ fractions ++ functions)
  let powers := Spans.ofList <| bases ++
    followed bases (fun k => (p.marks .caret k).flatMap (p.after Cell.powers)) .power
  let atoms := p.lexeme.symbols ++ p.lexeme.numbers
  let sideBySide := followed atoms (p.after Cell.terms) .adjacent ++
    followed groups (fun k => p.after Cell.groups k ++ p.tokens Lexeme.symbols k) .adjacent ++
    followed functions (p.after Cell.functions) .adjacent ++
    followed fractions (p.after Cell.terms) .adjacent
  let terms := grow (fun n f =>
    (p.marks .times n).flatMap (fun k => (p.after Cell.powers k).map fun (m, g) =>
      (m, .product f g)) ++
    (p.marks .slash n).flatMap fun k => (p.after Cell.powers k).map fun (m, g) =>
      (m, .quotient f g)) limit (Spans.ofList (powers ++ sideBySide))
  let signed := (p.marks .plus 0).flatMap (p.after Cell.terms) ++
    (p.marks .minus 0).flatMap fun k => (p.after Cell.terms k).map fun (n, f) => (n, .opposite f)
  let sums := grow (fun n f =>
    (p.marks .plus n).flatMap (fun k => (p.after Cell.terms k).map fun (m, g) => (m, .sum f g)) ++
    (p.marks .minus n).flatMap fun k => (p.after Cell.terms k).map fun (m, g) =>
      (m, .difference f g)) limit (Spans.ofList (terms ++ signed))
  ⟨p.lexeme, groups, functions, cores, powers, terms, sums⟩

end Place

def Lexeme.ofText (t : Text) (later : Chart) : Lexeme :=
  let first := Lexeme.here t
  match ignored? t with
  | some (k + 1) =>
    match later[k]? with
    | some cell => first.orAfter (k + 1) cell.lexeme
    | Option.none => first
  | _ => first

def chart : Text → Chart
  | [] => [(Place.mk (Lexeme.here []) []).cell]
  | c :: t =>
    let later := chart t
    (Place.mk (Lexeme.ofText (c :: t) later) later).cell :: later

end GraphBlock.Algebra.Latex
