import GraphBlock.Text.Quoted
import GraphBlock.Value.Basic

namespace GraphBlock.Value

def commaSeparated (items : List Text) : Text := List.intercalate ", ".toList items

mutual

def shown : Value → Text
  | null => "None"
  | bool true => "True"
  | bool false => "False"
  | int n => intText n
  | float x => x.text
  | text t => Text.quoted t
  | member m => '<' :: m.path ++ ": " ++ Text.quoted m.value ++ ">"
  | list items => '[' :: commaSeparated (shownItems items) ++ "]"
  | tuple [item] => '(' :: item.shown ++ ",)"
  | tuple items => '(' :: commaSeparated (shownItems items) ++ ")"
  | record entries => '{' :: commaSeparated (shownEntries entries) ++ ['}']

def shownItems : List Value → List Text
  | [] => []
  | v :: vs => v.shown :: shownItems vs

def shownEntries : List (Value × Value) → List Text
  | [] => []
  | (k, v) :: es => (k.shown ++ ": " ++ v.shown) :: shownEntries es

end

def plain : Value → Text
  | text t => t
  | member m => m.path
  | v => v.shown

/-- A flag is `true` or `false`, a member its name in lower case, and a number that is an integer
has no fraction. -/
def directive : Value → Text
  | bool b => if b then "true" else "false"
  | member m => Text.lower m.name
  | float x => match x.toInt? with
    | some n => intText n
    | none => x.text
  | v => v.plain

end GraphBlock.Value
