import GraphBlock.Graph.Basic

/-!
A block's text and the graph last built from it. Changes to the graph stay in memory until they are
written back into the text; a change that fails leaves the session as it was.
-/

namespace GraphBlock

structure Session where
  text : Text
  graph : Graph

namespace Session

def blank : Session := ⟨[], .blank⟩

def parse (advise : Text → Option Hint) (source : Text) : Except GraphError Session :=
  (Graph.parse advise source).map (⟨source, ·⟩)

def withSettings (s : Session) (updates : List (Text × Value)) : Except GraphError Session := do
  let graph ← s.graph.withSettings (← Overrides.ofRecord updates)
  return { s with graph := graph }

def updateSource (s : Session) (updates : List (Text × Value)) : Except GraphError Session :=
  (Source.update s.text updates).map fun text => { s with text := text }

def writeBack (s : Session) (keys : List Text) : Except GraphError Session := do
  let settings ← keys.eraseDups.mapM fun name =>
    match Key.named? name with
    | some k => .ok (s.graph.settings.get k)
    | none => .error (.unknownField name)
  s.updateSource (Overrides.toRecord settings)

def reparse (s : Session) (advise : Text → Option Hint) : Except GraphError Session :=
  parse advise s.text

end Session

end GraphBlock
