import GraphBlock.Graph.Basic

namespace GraphBlock.Calculator

def clauseBody (restriction : Text) : Text :=
  Text.replacePair '>' '=' "\\ge " (Text.replacePair '<' '=' "\\le " restriction)

def clause (restriction : Text) : Text := '\\' :: '{' :: clauseBody restriction ++ ['\\', '}']

structure Expression where
  latex : Text
  id : Option Text
  style : Option Style
  color : Option Text
  hidden : Bool
  label : Option Text
  deriving DecidableEq, Repr

def Expression.ofEquation (e : Equation) (id : Option Text) : Expression where
  latex := e.expression ++ (e.restrictions.getD []).flatMap clause
  id := id
  style := e.style
  color := e.color.map Color.value
  hidden := e.hidden.getD false
  label := e.label.map fun t => if t.isEmpty then e.expression else t

structure Options where
  settingsMenu : Bool
  expressions : Bool
  lockViewport : Bool
  zoomButtons : Bool
  trace : Bool
  showGrid : Bool
  xAxisNumbers : Bool
  yAxisNumbers : Bool
  degreeMode : Bool
  deriving DecidableEq, Repr

def Options.ofSettings (s : Settings) : Options where
  settingsMenu := false
  expressions := false
  lockViewport := s.lock
  zoomButtons := false
  trace := false
  showGrid := s.grid
  xAxisNumbers := !s.hideAxisNumbers
  yAxisNumbers := !s.hideAxisNumbers
  degreeMode := s.degreeMode = .degrees

structure MathBounds where
  left : Number
  right : Number
  bottom : Number
  top : Number
  deriving DecidableEq, Repr

def MathBounds.ofSettings (s : Settings) : MathBounds := ⟨s.left, s.right, s.bottom, s.top⟩

structure State where
  width : Number
  height : Number
  options : Options
  mathBounds : MathBounds
  expressions : List Expression
  deriving DecidableEq, Repr

def idAt (i : Nat) : Text := "graph-" ++ natText i

def State.ofGraph (g : Graph) : State where
  width := g.settings.width
  height := g.settings.height
  options := .ofSettings g.settings
  mathBounds := .ofSettings g.settings
  expressions := g.equations.mapIdx fun i e => .ofEquation e (some (idAt i))

end GraphBlock.Calculator
