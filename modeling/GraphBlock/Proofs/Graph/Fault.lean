import GraphBlock.Graph.Basic
import GraphBlock.Proofs.Equation.Classes
import GraphBlock.Proofs.Setting.Conversion

/-!
Reading with every way left open in which it could break down: a setting of a kind that has no
reader, a label without a colon, a size that is rounded though it is not finite, and a conversion of
LaTeX that fails. None of them comes to pass, and reading ends with a graph or a refusal.
-/

namespace GraphBlock

/-- How reading could end without a graph. Only a refusal is meant for the author. -/
inductive Fault (ε : Type)
  | refused (error : GraphError)
  | unknownKind (kind field : Text)
  | noColon (segment : Text)
  | notFinite (x : Binary64)
  | unconverted (failure : ε)

namespace Fault

variable {ε : Type}

def ofReadError : Kind.ReadError → Fault ε
  | .unknownKind kind field => unknownKind kind field
  | .graph error => refused error

/-- A failure of the conversion is caught, and leaves the hint without a suggestion. -/
def hint? (convert : Text → Except ε Text) (segment : Text) : Except (Fault ε) (Option Hint) :=
  if '\\' ∈ segment then do
    let suggestion ← tryCatch (((convert segment).mapError unconverted).map some) fun
      | unconverted _ => .ok none
      | fault => .error fault
    return some ⟨segment, suggestion⟩
  else return none

def labelText (segment : Text) : Except (Fault ε) Text :=
  match Text.breakAt? ':' segment with
  | some (_, t) => .ok (Text.trim t)
  | none => .error (.noColon segment)

def addTag (convert : Text → Except ε Text) (l : EquationLine) (segment : Text) :
    Except (Fault ε) EquationLine :=
  match Tag.ofText segment with
  | .label _ =>
    if l.equation.label.isSome then .error (.refused .duplicateLabel)
    else do
      let t ← labelText segment
      if t.isEmpty then .error (.refused .emptyLabel)
      else return { l with equation := { l.equation with label := some t } }
  | .restriction t => do
    let hint ← hint? convert t
    return ⟨{ l.equation with restrictions := some (l.equation.restrictions.getD [] ++ [t]) },
      hint.or l.hint⟩
  | _ => (l.add (fun _ => none) segment).mapError .refused

def parseLine (convert : Text → Except ε Text) (line : Text) : Except (Fault ε) EquationLine :=
  match EquationLine.segments line with
  | [] => .error (.refused (.noExpression line))
  | expression :: tags => tags.foldlM (addTag convert) ⟨.ofExpression expression, none⟩

def readLines (convert : Text → Except ε Text) (lines : List Text) :
    Except (Fault ε) (List Equation × Option Hint) := do
  let read ← lines.mapM (parseLine convert)
  return (read.map (·.equation), (read.filterMap (·.hint)).getLast?)

def rounded (x : Binary64) : Except (Fault ε) Int :=
  match (x.add .half).floor? with
  | some n => .ok n
  | none => .error (.notFinite x)

def readKind (kind field : Text) (value : Option Text) : Except (Fault ε) Value :=
  if kind = Kind.integer.name then do
    let x ← (Kind.readNumber field value).mapError .refused
    return .int (← rounded x)
  else (Kind.readNamed kind field value).mapError ofReadError

def addDirective (o : Overrides) (d : Overrides.Directive) : Except (Fault ε) Overrides :=
  match Key.named? d.key with
  | none => .error (.refused (.unknownField d.key))
  | some k =>
    if k ∈ o.keys then .error (.refused (.duplicateKey d.key))
    else do
      let v ← readKind k.kind.name k.name d.value
      return o.put (← (Setting.ofValue k v).mapError .refused)

def parseSettings : Option Text → Except (Fault ε) Overrides
  | none => .ok .empty
  | some segment => (Overrides.directives segment).foldlM addDirective .empty

def parse (convert : Text → Except ε Text) (source : Text) : Except (Fault ε) Graph := do
  let (settings, equations) ← (Source.segments source).mapError .refused
  let (equations, hint) ← readLines convert (Text.lines equations)
  let written ← parseSettings settings
  (Graph.build equations written hint).mapError .refused

variable {convert : Text → Except ε Text}

theorem hint?_eq (segment : Text) :
    hint? convert segment = .ok (Hint.ofRestriction? convert segment) := by
  rw [hint?, Hint.ofRestriction?]
  split
  · cases convert segment <;> rfl
  · rfl

theorem labelText_eq {segment : Text} (h : "LABEL:".toList <+: Text.upper segment) :
    (labelText segment : Except (Fault ε) Text) = .ok (Tag.labelText segment) := by
  obtain ⟨a, b, hsegment, ha, heq⟩ := Tag.exists_labelText h
  rw [labelText, heq, hsegment, Text.breakAt?_append b ha]

theorem addTag_eq (l : EquationLine) (segment : Text) :
    addTag convert l segment = (l.add (Hint.ofRestriction? convert) segment).mapError .refused := by
  cases htag : Tag.ofText segment with
  | label t =>
    have hstart := (Tag.ofText_eq_label_iff.mp htag).1
    have ht : t = Tag.labelText segment := by
      rw [Tag.ofText_of_prefixed hstart] at htag
      cases htag
      rfl
    simp only [addTag, EquationLine.add, htag, labelText_eq hstart, ← ht]
    split
    · rfl
    · simp only [bind, Except.bind]
      split <;> rfl
  | restriction t =>
    simp only [addTag, EquationLine.add, htag, hint?_eq]
    rfl
  | hidden => simp only [addTag, EquationLine.add, htag]
  | style s => simp only [addTag, EquationLine.add, htag]
  | color c => simp only [addTag, EquationLine.add, htag]
  | ownLabel => simp only [addTag, EquationLine.add, htag]

theorem parseLine_eq (line : Text) :
    parseLine convert line =
      (EquationLine.parse (Hint.ofRestriction? convert) line).mapError .refused := by
  rw [parseLine, EquationLine.parse]
  cases EquationLine.segments line with
  | nil => rfl
  | cons expression tags =>
    have hadd : addTag convert = fun l segment =>
        (EquationLine.add (Hint.ofRestriction? convert) l segment).mapError .refused :=
      funext fun l => funext (addTag_eq l)
    dsimp only
    rw [hadd, foldlM_mapError]

theorem readLines_eq (lines : List Text) :
    readLines convert lines =
      (Graph.readLines (Hint.ofRestriction? convert) lines).mapError .refused := by
  have hline : parseLine convert = fun line =>
      (EquationLine.parse (Hint.ofRestriction? convert) line).mapError .refused :=
    funext parseLine_eq
  rw [readLines, Graph.readLines, hline, mapM_mapError, mapError_bind]
  rfl

theorem readKind_eq (kind : Kind) (field : Text) (value : Option Text) :
    (readKind kind.name field value : Except (Fault ε) Value) =
      (kind.read field value).mapError .refused := by
  by_cases hkind : kind = .integer
  · rw [hkind, readKind, if_pos rfl, Kind.read, Kind.readInteger]
    cases hnumber : Kind.readNumber field value with
    | error e => rfl
    | ok x =>
      obtain ⟨n, hn⟩ := Binary64.exists_floor_add_half (Kind.isFinite_of_readNumber hnumber)
      simp only [bind, Except.bind, Except.mapError, rounded, hn]
      rfl
  · have hname : kind.name ≠ Kind.integer.name := by
      cases kind <;> first | decide | exact absurd rfl hkind
    have hnamed : Kind.named? kind.name = some kind := by cases kind <;> decide
    simp only [readKind, if_neg hname, Kind.readNamed, hnamed]
    cases kind.read field value <;> rfl

theorem addDirective_eq (o : Overrides) (d : Overrides.Directive) :
    (addDirective o d : Except (Fault ε) Overrides) = (o.add d).mapError .refused := by
  rw [addDirective, Overrides.add]
  cases Key.named? d.key with
  | none => rfl
  | some k =>
    dsimp only
    split
    · rfl
    · rw [readKind_eq, Setting.read_eq]
      cases k.kind.read k.name d.value with
      | error e => rfl
      | ok v =>
        simp only [bind, Except.bind, Except.mapError]
        cases Setting.ofValue k v <;> rfl

theorem parseSettings_eq (settings : Option Text) :
    (parseSettings settings : Except (Fault ε) Overrides) =
      (Overrides.parse settings).mapError .refused := by
  cases settings with
  | none => rfl
  | some segment =>
    have hadd : (addDirective : Overrides → _ → Except (Fault ε) Overrides) = fun o d =>
        (o.add d).mapError .refused := funext fun o => funext (addDirective_eq o)
    rw [parseSettings, hadd, foldlM_mapError]
    rfl

/-- Of all faults, only refusals come to pass. -/
theorem parse_eq (convert : Text → Except ε Text) (source : Text) :
    parse convert source =
      (Graph.parse (Hint.ofRestriction? convert) source).mapError .refused := by
  simp only [parse, Graph.parse, readLines_eq, parseSettings_eq, mapError_bind]

end Fault

end GraphBlock
