import GraphBlock.Number.Basic
import GraphBlock.Style
import GraphBlock.Color
import GraphBlock.Vocabulary

/-!
The values that a host hands over and stores: plain data, the members of the vocabularies, and
sequences and records of them. A record keeps its entries in order.
-/

namespace GraphBlock

inductive Member
  | line (style : LineStyle)
  | point (style : PointStyle)
  | color (color : NamedColor)
  | degree (mode : DegreeMode)
  | cache (location : CacheLocation)
  deriving DecidableEq, Repr

namespace Member

def title : Member → Text
  | line _ => Vocabulary.title LineStyle
  | point _ => Vocabulary.title PointStyle
  | color _ => Vocabulary.title NamedColor
  | degree _ => Vocabulary.title DegreeMode
  | cache _ => Vocabulary.title CacheLocation

def name : Member → Text
  | line m => Vocabulary.name m
  | point m => Vocabulary.name m
  | color m => Vocabulary.name m
  | degree m => Vocabulary.name m
  | cache m => Vocabulary.name m

def value : Member → Text
  | line m => Vocabulary.value m
  | point m => Vocabulary.value m
  | color m => Vocabulary.value m
  | degree m => Vocabulary.value m
  | cache m => Vocabulary.value m

def all : List Member :=
  Vocabulary.members.map line ++ Vocabulary.members.map point ++ Vocabulary.members.map color ++
    Vocabulary.members.map degree ++ Vocabulary.members.map cache

def named? (title token : Text) : Option Member :=
  all.find? fun m => m.title == title && m.name == Text.upper token

def path (m : Member) : Text := m.title ++ '.' :: m.name

end Member

inductive Value
  | null
  | bool (b : Bool)
  | int (n : Int)
  | float (x : Binary64)
  | text (t : Text)
  | member (m : Member)
  | list (items : List Value)
  | tuple (items : List Value)
  | record (entries : List (Value × Value))
  deriving Repr

namespace Value

/-- The number that a value counts as: a flag is zero or one. -/
def number? : Value → Option Number
  | bool b => some (.int (if b then 1 else 0))
  | int n => some (.int n)
  | float x => some (.float x)
  | _ => none

def text? : Value → Option Text
  | text t => some t
  | member m => some m.value
  | _ => none

def ofNumber : Number → Value
  | .int n => int n
  | .float x => float x

/-- The flag that a value counts as: all are true but nothing, false, zero and what is empty. -/
def asFlag : Value → Bool
  | null => false
  | bool b => b
  | int n => n != 0
  | float x => x.units? != some 0
  | text t => !t.isEmpty
  | member _ => true
  | list items => !items.isEmpty
  | tuple items => !items.isEmpty
  | record entries => !entries.isEmpty

def kindName : Value → Text
  | null => "NoneType"
  | bool _ => "bool"
  | int _ => "int"
  | float _ => "float"
  | text _ => "str"
  | member m => m.title
  | list _ => "list"
  | tuple _ => "tuple"
  | record _ => "dict"

end Value

end GraphBlock
