import GraphBlock.Text.Basic

/-!
A hint says that a restriction may hold LaTeX, which the graphing engine refuses, and proposes a
plain spelling where one is known. It accompanies a graph that was read without error, and is shown
on the card of one that failed.
-/

namespace GraphBlock

namespace Html

def escapedChar : Char → Text
  | '&' => "&amp;"
  | '<' => "&lt;"
  | '>' => "&gt;"
  | '"' => "&quot;"
  | '\'' => "&#x27;"
  | c => [c]

def escaped (t : Text) : Text := t.flatMap escapedChar

end Html

structure Hint where
  segment : Text
  suggestion : Option Text
  deriving DecidableEq, Repr

namespace Hint

/-- A backslash earns a restriction a hint. -/
def ofRestriction? {ε : Type} (convert : Text → Except ε Text) (segment : Text) : Option Hint :=
  if '\\' ∈ segment then some ⟨segment, (convert segment).toOption⟩ else none

def bare : Text → Option Hint := ofRestriction? fun _ => (.error () : Except Unit Text)

/-! What is shown where no spelling can be proposed. -/

def sampleLatex : Text := "\\frac{1}{2}"

def samplePlain : Text := "1/2"

def message (h : Hint) : Text :=
  let alternative : Text := match h.suggestion with
    | some s => s
    | none => sampleLatex ++ " => " ++ samplePlain
  "You may have tried to use the LaTeX syntax in the graph restriction (" ++ h.segment ++
    "), please use some sort of an alternative (e.g. " ++ alternative ++
    ") as this is not supported by Desmos."

def code (t : Text) : Text := "<code>" ++ Html.escaped t ++ "</code>"

def view (h : Hint) : Text :=
  let alternative : Text := match h.suggestion with
    | some s => code s
    | none => code sampleLatex ++ " =&gt; " ++ code samplePlain
  "<span><span>You may have tried to use the LaTeX syntax in the graph restriction (</span>" ++
    code h.segment ++ "<span>), please use some sort of an alternative (e.g " ++ alternative ++
    ") as this is not supported by Desmos.</span></span>"

end Hint

namespace Card

def hintMarkup (h : Hint) : Text :=
  "<div class=\"desmos-graph-error-hint\" style=\"margin-top:10px; padding-top:10px; " ++
    "border-top:1px solid rgba(255,255,255,0.5);\">" ++ h.view ++ "</div>"

def html (message : Text) (hint : Option Hint) : Text :=
  "<div class=\"desmos-graph-error\" style=\"padding:20px; background-color:#f44336; " ++
    "color:white;\"><div><strong>Desmos Graph Error: </strong><span>" ++ Html.escaped message ++
    "</span></div>" ++ (hint.elim [] hintMarkup) ++ "</div>"

end Card

end GraphBlock
