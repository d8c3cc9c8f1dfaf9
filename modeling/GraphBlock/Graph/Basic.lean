import GraphBlock.Equation.Line
import GraphBlock.Json
import GraphBlock.Setting.Settings
import GraphBlock.Sha256
import GraphBlock.Source

/-!
A graph is what its author wrote: equations, overrides and a hint, with full settings that keep the
rules. All else is derived, so nothing inferred or painted at one step can outlive it.
-/

namespace GraphBlock

def Settings.shown (s : Settings) : Text :=
  let fields : List (Text × Value) :=
    [("width", .ofNumber s.width), ("height", .ofNumber s.height), ("left", .ofNumber s.left),
      ("right", .ofNumber s.right), ("bottom", .ofNumber s.bottom), ("top", .ofNumber s.top),
      ("grid", .bool s.grid), ("lock", .bool s.lock),
      ("hide_axis_numbers", .bool s.hideAxisNumbers),
      ("degree_mode", .member (.degree s.degreeMode)),
      ("default_color", s.defaultColor.elim .null Color.toValue)]
  "GraphSettings(" ++ Value.commaSeparated (fields.map fun (k, v) => k ++ '=' :: v.shown) ++ ")"

structure Graph where
  source : List Equation
  /-- The overrides as written, without inferred edges. -/
  written : Overrides
  hint : Option Hint
  valid : (Settings.ofOverrides written.adjusted).validate = .ok ()

namespace Graph

def build (source : List Equation) (written : Overrides) (hint : Option Hint) :
    Except GraphError Graph :=
  match h : (Settings.ofOverrides written.adjusted).validate with
  | .ok () => .ok ⟨source, written, hint, h⟩
  | .error e => .error e

def blank : Graph := ⟨[], .empty, none, Settings.validate_default⟩

def settings (g : Graph) : Settings := .ofOverrides g.written.adjusted

def equations (g : Graph) : List Equation := g.source.map (·.painted g.settings.defaultColor)

/-- What the content hash covers: the equations as written and the adjusted overrides. The defaults
are left out, so a later default does not change the hash of older graphs. -/
def content (g : Graph) : Value :=
  let settings := Overrides.toRecord g.written.adjusted.entries
  .record [(.text "equations", .list (g.source.map Equation.toValue)),
    (.text "settings", .record (settings.map fun (k, v) => (.text k, v)))]

def hash (g : Graph) : Text := Text.sha256 g.content.canonical

def withSettings (g : Graph) (updates : Overrides) : Except GraphError Graph :=
  build g.source (g.written.merge updates) g.hint

def readLines (advise : Text → Option Hint) (lines : List Text) :
    Except GraphError (List Equation × Option Hint) := do
  let read ← lines.mapM (EquationLine.parse advise)
  return (read.map (·.equation), (read.filterMap (·.hint)).getLast?)

/-- Reads a block: its segments, then its equations, then its settings, then the rules. The first
stage that fails decides the error. -/
def parse (advise : Text → Option Hint) (source : Text) : Except GraphError Graph := do
  let (settings, equations) ← Source.segments source
  let (equations, hint) ← readLines advise (Text.lines equations)
  let written ← Overrides.parse settings
  build equations written hint

def shown (g : Graph) : Text :=
  "Graph(equations=" ++ natText g.source.length ++ ", settings=" ++ g.settings.shown ++ ")"

end Graph

end GraphBlock
