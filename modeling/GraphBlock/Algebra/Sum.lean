import GraphBlock.Algebra.Operations

namespace GraphBlock.Algebra.Sum

open GraphBlock.Algebra.Expr

structure Collected where
  constant : Scalar
  terms : List (Expr × Scalar)

def insert (e : Expr) (c : Scalar) : List (Expr × Scalar) → List (Expr × Scalar)
  | [] => [(e, c)]
  | (f, d) :: rest => if f == e then (f, d.add c) :: rest else (f, d) :: insert e c rest

def Collected.add (s : Collected) (e : Expr) : Collected :=
  match e with
  | scalar c => ⟨s.constant.add c, s.terms⟩
  | e => ⟨s.constant, insert e.parts.2 e.parts.1 s.terms⟩

def collect (es : List Expr) : Collected :=
  (es.flatMap Expr.terms).foldl Collected.add ⟨.zero, []⟩

def isAbsorbed (constant : Scalar) (e : Expr) : Bool :=
  match constant with
  | .infinite negative =>
    let n := e.nature
    (if negative then n.isNonpositive else n.isNonnegative) || (e.value?.isSome && n.isReal)
  | .unbounded => e.value?.isSome
  | _ => false

def ofList (ops : Operations) (es : List Expr) : Expr :=
  match es.filter (· != int 0) with
  | [] => int 0
  | [e] => e
  | es =>
    let s := collect es
    if s.constant = .undefined ∨ s.terms.any (·.2 == .undefined) then scalar .undefined
    else
      let terms := s.terms.filterMap fun (e, c) =>
        if c.isZero then none
        else if c = .one then some e
        else match e with
          | product fs => some (product (scalar c :: fs))
          | sum ts => some (product [scalar c, sum ts])
          | e => some (ops.mul [scalar c, e])
      let terms := terms.filter fun e => !isAbsorbed s.constant e
      ofTerms (if s.constant = .zero then terms else scalar s.constant :: terms)

end GraphBlock.Algebra.Sum
