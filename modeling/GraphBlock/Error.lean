import GraphBlock.Number.Basic
import GraphBlock.Style
import GraphBlock.Color
import GraphBlock.Vocabulary
import GraphBlock.Text.Quoted

namespace GraphBlock

def maxSize : Int := 99999

inductive GraphError
  | tooManySegments
  | noExpression (line : Text)
  | duplicateStyle (first : Style) (again : Text)
  | duplicateColor
  | duplicateLabel
  | emptyLabel
  | unknownField (key : Text)
  | duplicateKey (key : Text)
  | missingValue (field : Text)
  | notNumber (field value : Text)
  | notFlag (field : Text)
  | notDegreeMode (field : Text)
  | notColor (field : Text)
  | tooLarge (width height : Number)
  | rightNotAboveLeft (right left : Number)
  | topNotAboveBottom (top bottom : Number)
  deriving DecidableEq, Repr

namespace GraphError

def message : GraphError → Text
  | tooManySegments => "Too many graph segments, there can only be a singular '---'"
  | noExpression line => "Equation line " ++ Text.quoted line ++ " has no expression"
  | duplicateStyle first again =>
    "Duplicate style identifiers detected: " ++ first.value ++ ", " ++ again
  | duplicateColor =>
    "Duplicate color identifiers detected, each equation may only contain a single color code."
  | duplicateLabel =>
    "Duplicate label identifiers detected, each equation may only contain a single label."
  | emptyLabel => "Equation label must have a value"
  | unknownField key => "Unrecognised field: " ++ key
  | duplicateKey key => "Duplicate key '" ++ key ++ "' not allowed"
  | missingValue field => "Field '" ++ field ++ "' must have a value"
  | notNumber field value =>
    "Field '" ++ field ++ "' must have an integer (or decimal) value, got '" ++ value ++ "'"
  | notFlag field =>
    "Field '" ++ field ++ "' requires a boolean value 'true'/'false' " ++
      "(omit a value to default to 'true')"
  | notDegreeMode field =>
    "Field '" ++ field ++ "' must be one of: " ++ Vocabulary.listing DegreeMode
  | notColor field =>
    "Field '" ++ field ++ "' must be either a valid hex code or one of: " ++
      Vocabulary.listing NamedColor
  | tooLarge width height =>
    "Graph size outside of accepted bounds (must be at most " ++ intText maxSize ++ "x" ++
      intText maxSize ++ ", got " ++ width.text ++ "x" ++ height.text ++ ")"
  | rightNotAboveLeft right left =>
    "Right boundary (" ++ right.text ++ ") must be greater than left boundary (" ++
      left.text ++ ")"
  | topNotAboveBottom top bottom =>
    "Top boundary (" ++ top.text ++ ") must be greater than bottom boundary (" ++
      bottom.text ++ ")"

end GraphError

end GraphBlock
