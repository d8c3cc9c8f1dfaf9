import GraphBlock.Value.Basic

namespace GraphBlock.Value

def equalAtoms (v w : Value) : Bool :=
  match v.number?, w.number? with
  | some a, some b =>
    match a.place?, b.place? with
    | some p, some q => p == q
    | _, _ => false
  | some _, none => false
  | none, some _ => false
  | none, none =>
    match v.text?, w.text? with
    | some a, some b => a == b
    | _, _ => false

mutual

def equal : Value → Value → Bool
  | null, null => true
  | list xs, list ys => equalItems xs ys
  | tuple xs, tuple ys => equalItems xs ys
  | record xs, record ys => xs.length == ys.length && entriesIn xs ys
  | v, w => equalAtoms v w

def equalItems : List Value → List Value → Bool
  | [], [] => true
  | x :: xs, y :: ys => equal x y && equalItems xs ys
  | _, _ => false

def entriesIn : List (Value × Value) → List (Value × Value) → Bool
  | [], _ => true
  | (k, v) :: xs, ys =>
    (match ys.find? fun e => equal k e.1 with
      | some e => equal v e.2
      | none => false) && entriesIn xs ys

end

def lookup? (key : Value) (entries : List (Value × Value)) : Option Value :=
  (entries.find? fun e => key.equal e.1).map (·.2)

def putEntry (key value : Value) : List (Value × Value) → List (Value × Value)
  | [] => [(key, value)]
  | e :: rest => if e.1.equal key then (e.1, value) :: rest else e :: putEntry key value rest

def ofEntries (entries : List (Value × Value)) : Value :=
  record (entries.foldl (fun d e => putEntry e.1 e.2 d) [])

end GraphBlock.Value
