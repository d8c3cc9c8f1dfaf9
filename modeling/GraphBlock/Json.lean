import GraphBlock.Text.Quoted
import GraphBlock.Value.Written

/-!
Compact JSON of host values. A value is first reduced to a JSON tree: members become texts, floats
that are integers become integers, tuples become arrays and keys become texts. The tree is then
written without blanks.
-/

namespace GraphBlock

inductive Json
  | null
  | bool (b : Bool)
  | int (n : Int)
  | float (x : Binary64)
  | string (t : Text)
  | array (items : List Json)
  | object (entries : List (Text × Json))
  deriving Repr

namespace Json

/-- Sets a key: a known key keeps its position, a new one comes last. -/
def putEntry (key : Text) (value : Json) : List (Text × Json) → List (Text × Json)
  | [] => [(key, value)]
  | e :: rest => if e.1 = key then (key, value) :: rest else e :: putEntry key value rest

def ofEntries (entries : List (Text × Json)) : Json :=
  object (entries.foldl (fun o e => putEntry e.1 e.2 o) [])

def escapedChar (c : Char) : Text :=
  if c = '"' ∨ c = '\\' then ['\\', c]
  else if c = '\n' then "\\n"
  else if c = '\r' then "\\r"
  else if c = '\t' then "\\t"
  else if c = '\x08' then "\\b"
  else if c = '\x0c' then "\\f"
  else if c.toNat < 0x20 then "\\u" ++ Text.hex 4 c.toNat
  else [c]

def quoted (t : Text) : Text := '"' :: t.flatMap escapedChar ++ "\""

def numberText : Binary64 → Text
  | .nan => "NaN"
  | .infinite false => "Infinity"
  | .infinite true => "-Infinity"
  | x => x.text

mutual

def text : Json → Text
  | null => "null"
  | bool true => "true"
  | bool false => "false"
  | int n => intText n
  | float x => numberText x
  | string t => quoted t
  | array items => '[' :: itemsText items ++ "]"
  | object entries => '{' :: entriesText entries ++ ['}']

def itemsText : List Json → Text
  | [] => []
  | [v] => v.text
  | v :: vs => v.text ++ ',' :: itemsText vs

def entriesText : List (Text × Json) → Text
  | [] => []
  | [(k, v)] => quoted k ++ ':' :: v.text
  | (k, v) :: es => quoted k ++ ':' :: v.text ++ ',' :: entriesText es

end

end Json

namespace Value

mutual

def json : Value → Json
  | null => .null
  | bool b => .bool b
  | int n => .int n
  | float x => match x.toInt? with
    | some n => .int n
    | none => .float x
  | text t => .string t
  | member m => .string m.value
  | list items => .array (jsonItems items)
  | tuple items => .array (jsonItems items)
  | record entries => .ofEntries (jsonEntries entries)

def jsonItems : List Value → List Json
  | [] => []
  | v :: vs => v.json :: jsonItems vs

def jsonEntries : List (Value × Value) → List (Text × Json)
  | [] => []
  | (k, v) :: es => (k.plain, v.json) :: jsonEntries es

end

def canonical (v : Value) : Text := v.json.text

end Value

end GraphBlock
