import GraphBlock.Setting.Overrides

/-!
The text of a block: an optional settings segment, the delimiter, and the equations. Settings are
written back into it. A directive that is there keeps its place and its spacing and gets a new
value; one that is not there is added in a line of its own at the end of the settings segment. The
rest of the text stays as it is.
-/

namespace GraphBlock

def Setting.written (s : Setting) : Text := s.key.name ++ '=' :: s.toValue.directive

namespace Source

def delimiter : Text := "---"

theorem delimiter_eq : delimiter = ['-', '-', '-'] := rfl

def breakDelimiter? : Text → Option (Text × Text)
  | '-' :: '-' :: '-' :: t => some ([], t)
  | c :: t => (breakDelimiter? t).map fun (a, b) => (c :: a, b)
  | [] => none

def segments (source : Text) : Except GraphError (Option Text × Text) :=
  match breakDelimiter? source with
  | none => .ok (none, source)
  | some (settings, equations) =>
    if (breakDelimiter? equations).isSome then .error .tooManySegments
    else .ok (some settings, equations)

def isGap (c : Char) : Bool := c == ' ' || c == '\t'

/-- A piece cut after its key: the gap and the key in front, and what follows. -/
def afterKey? (key piece : Text) : Option (Text × Text) :=
  let rest := piece.dropWhile isGap
  if key.isPrefixOf rest then some (piece.takeWhile isGap ++ key, rest.drop key.length) else none

def assign? (key value piece : Text) : Option Text :=
  match afterKey? key piece with
  | none => none
  | some (front, rest) =>
    match rest.dropWhile isGap with
    | '=' :: old =>
      some (front ++ rest.takeWhile isGap ++ '=' :: old.takeWhile isGap ++ value ++
        (old.dropWhile isGap).dropWhile (!Text.isBlank ·))
    | _ => none

def assignBare? (key value piece : Text) : Option Text :=
  match afterKey? key piece with
  | none => none
  | some (front, rest) => if rest.all isGap then some (front ++ '=' :: value ++ rest) else none

/-- Replaces the first directive of a key. A directive with a value is preferred to a bare key. -/
def replaceDirective? (key value settings : Text) : Option Text :=
  let pieces := Pieces.cut Overrides.isDelimiter settings
  ((pieces.updateFirst? (assign? key value)).or
    (pieces.updateFirst? (assignBare? key value))).map Pieces.text

def appendDirective (key value settings : Text) : Text :=
  let gap : Text := if settings.isEmpty || settings.getLast? == some '\n' then "" else "\n"
  settings ++ gap ++ key ++ '=' :: value ++ "\n"

def setDirective (settings : Text) (key value : Text) : Text :=
  (replaceDirective? key value settings).getD (appendDirective key value settings)

/-- The texts before and after the first delimiter; a block without one gets it in front. -/
def split (source : Text) : Text × Text := (breakDelimiter? source).getD ([], '\n' :: source)

def rewrite (source : Text) (updates : List (Key × Text)) : Text :=
  let (settings, equations) := split source
  updates.foldl (fun s (k, value) => setDirective s k.name value) settings ++ delimiter ++ equations

def spelled (updates : List (Text × Value)) : Except GraphError (List (Key × Text)) :=
  updates.mapM fun (name, v) =>
    match Key.named? name with
    | some k => .ok (k, v.directive)
    | none => .error (.unknownField name)

def update (source : Text) (updates : List (Text × Value)) : Except GraphError Text :=
  (spelled updates).map (rewrite source)

/-- A block written anew: a line for each setting, the delimiter on its own, and the lines. -/
def write (settings : List Setting) (lines : List Text) : Text :=
  settings.flatMap (fun s => s.written ++ ['\n']) ++ delimiter ++
    lines.flatMap fun line => '\n' :: line

end Source

end GraphBlock
