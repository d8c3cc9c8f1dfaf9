import GraphBlock.Vocabulary

namespace GraphBlock

inductive NamedColor
  | red
  | green
  | blue
  | yellow
  | magenta
  | cyan
  | purple
  | orange
  | black
  | white
  deriving DecidableEq, Repr

instance : Vocabulary NamedColor where
  title := "ColorConstant"
  members := [.red, .green, .blue, .yellow, .magenta, .cyan, .purple, .orange, .black, .white]
  name
    | .red => "RED"
    | .green => "GREEN"
    | .blue => "BLUE"
    | .yellow => "YELLOW"
    | .magenta => "MAGENTA"
    | .cyan => "CYAN"
    | .purple => "PURPLE"
    | .orange => "ORANGE"
    | .black => "BLACK"
    | .white => "WHITE"
  value
    | .red => "#ff0000"
    | .green => "#00ff00"
    | .blue => "#0000ff"
    | .yellow => "#ffff00"
    | .magenta => "#ff00ff"
    | .cyan => "#00ffff"
    | .purple => "#6042a6"
    | .orange => "#ffa500"
    | .black => "#000000"
    | .white => "#ffffff"

inductive Color
  | named (color : NamedColor)
  | code (text : Text)
  deriving DecidableEq, Repr

namespace Color

def isCode : Text → Bool
  | '#' :: body => !body.isEmpty && body.all Char.isAlphanum
  | _ => false

def parse? (token : Text) : Option Color :=
  if isCode token then some (code token) else (Vocabulary.named? token).map named

def value : Color → Text
  | named c => Vocabulary.value c
  | code t => t

end Color

end GraphBlock
