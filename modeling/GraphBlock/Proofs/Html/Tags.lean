import GraphBlock.Hint

namespace GraphBlock.Html

structure Tag where
  closing : Bool
  name : Text
  attributes : List (Text × Text)
  selfClosing : Bool
  deriving DecidableEq, Repr

namespace Tag

def opening (name : Text) (attributes : List (Text × Text)) : Tag :=
  ⟨false, name, attributes, false⟩

def ending (name : Text) : Tag := ⟨true, name, [], false⟩

def addAttribute (tag : Tag) (name value : Text) : Tag :=
  { tag with attributes := tag.attributes ++ [(name, value)] }

end Tag

/-- Where the tokenizer stands. A tag that is begun comes with what is known of it. -/
inductive State
  | plain
  | tagOpen
  | endTagOpen
  | tagName (tag : Tag)
  | betweenAttributes (tag : Tag)
  | attributeName (tag : Tag) (name : Text)
  | afterAttributeName (tag : Tag) (name : Text)
  | beforeValue (tag : Tag) (name : Text)
  | quotedValue (tag : Tag) (name : Text) (quote : Char) (value : Text)
  | bareValue (tag : Tag) (name value : Text)
  | selfClosing (tag : Tag)
  | declaration
  | declarationDash
  | bogusComment
  | commentStart
  | commentStartDash
  | comment
  | commentDash
  | commentEnd
  | commentEndBang
  deriving DecidableEq, Repr

namespace State

def isSpace (c : Char) : Bool := c == ' ' || c == '\t' || c == '\n' || c == '\r' || c == '\x0c'

def endsName (c : Char) : Bool := isSpace c || c == '/' || c == '>'

def inPlain (c : Char) : State := if c = '<' then tagOpen else plain

def inBogusComment (c : Char) : State := if c = '>' then plain else bogusComment

def inTag (tag : Tag) (c : Char) : State × Option Tag :=
  if isSpace c then (betweenAttributes tag, none)
  else if c = '/' then (selfClosing tag, none)
  else if c = '>' then (plain, some tag)
  else (attributeName tag [c.toLower], none)

def behindName (tag : Tag) (name : Text) (c : Char) : State × Option Tag :=
  if c = '=' then (beforeValue tag name, none)
  else if isSpace c then (afterAttributeName tag name, none)
  else inTag (tag.addAttribute name []) c

/-- One character: where the tokenizer stands next, and the tag that ends here. -/
def step : State → Char → State × Option Tag
  | plain, c => (inPlain c, none)
  | tagOpen, c =>
    if c.isAlpha then (tagName (.opening [c.toLower] []), none)
    else if c = '/' then (endTagOpen, none)
    else if c = '!' then (declaration, none)
    else if c = '?' then (bogusComment, none)
    else (inPlain c, none)
  | endTagOpen, c =>
    if c.isAlpha then (tagName (.ending [c.toLower]), none) else (inBogusComment c, none)
  | tagName tag, c =>
    if endsName c then inTag tag c else (tagName { tag with name := tag.name ++ [c.toLower] }, none)
  | betweenAttributes tag, c => inTag tag c
  | attributeName tag name, c =>
    if c = '=' || endsName c then behindName tag name c
    else (attributeName tag (name ++ [c.toLower]), none)
  | afterAttributeName tag name, c => behindName tag name c
  | beforeValue tag name, c =>
    if isSpace c then (beforeValue tag name, none)
    else if c = '"' || c = '\'' then (quotedValue tag name c [], none)
    else if c = '>' then (plain, some (tag.addAttribute name []))
    else (bareValue tag name [c], none)
  | quotedValue tag name quote value, c =>
    if c = quote then (betweenAttributes (tag.addAttribute name value), none)
    else (quotedValue tag name quote (value ++ [c]), none)
  | bareValue tag name value, c =>
    if isSpace c || c = '>' then inTag (tag.addAttribute name value) c
    else (bareValue tag name (value ++ [c]), none)
  | selfClosing tag, c =>
    if c = '>' then (plain, some { tag with selfClosing := true }) else inTag tag c
  | declaration, c => (if c = '-' then declarationDash else inBogusComment c, none)
  | declarationDash, c => (if c = '-' then commentStart else inBogusComment c, none)
  | bogusComment, c => (inBogusComment c, none)
  | commentStart, c =>
    (if c = '-' then commentStartDash else if c = '>' then plain else comment, none)
  | commentStartDash, c =>
    (if c = '-' then commentEnd else if c = '>' then plain else comment, none)
  | comment, c => (if c = '-' then commentDash else comment, none)
  | commentDash, c => (if c = '-' then commentEnd else comment, none)
  | commentEnd, c =>
    (if c = '>' then plain else if c = '!' then commentEndBang
      else if c = '-' then commentEnd else comment, none)
  | commentEndBang, c =>
    (if c = '>' then plain else if c = '-' then commentDash else comment, none)

def run (s : State) : Text → List Tag × State
  | [] => ([], s)
  | c :: t =>
    let (next, tag?) := s.step c
    let (tags, last) := next.run t
    (tag?.toList ++ tags, last)

theorem run_append (s : State) (t u : Text) :
    s.run (t ++ u) =
      ((s.run t).1 ++ ((s.run t).2.run u).1, ((s.run t).2.run u).2) := by
  induction t generalizing s with
  | nil => rfl
  | cons c t ih => simp only [List.cons_append, run, ih, List.append_assoc]

end State

def tags (t : Text) : List Tag := (State.plain.run t).1

/-- A markup with the given tags, at whose end no tag is left open. -/
def HasTags (t : Text) (tags : List Tag) : Prop := State.plain.run t = (tags, .plain)

instance (t : Text) (tags : List Tag) : Decidable (HasTags t tags) :=
  inferInstanceAs (Decidable (_ = _))

variable {t u : Text} {as bs : List Tag}

theorem HasTags.ofList (h : HasTags t as) : HasTags (String.ofList t) as := by
  rwa [HasTags, String.toList_ofList]

theorem HasTags.ofList_append (h : HasTags (t ++ u) as) :
    HasTags (String.ofList t ++ String.ofList u) as := by
  rwa [HasTags, String.toList_ofList, String.toList_ofList]

theorem HasTags.tags_eq (h : HasTags t as) : tags t = as := by rw [tags, h]

theorem HasTags.append (ht : HasTags t as) (hu : HasTags u bs) : HasTags (t ++ u) (as ++ bs) := by
  rw [HasTags, State.run_append, ht, hu]

theorem hasTags_of_not_mem (h : '<' ∉ t) : HasTags t [] := by
  rw [HasTags]
  induction t with
  | nil => rfl
  | cons c t ih =>
    rw [List.mem_cons, not_or] at h
    have hplain : State.inPlain c = .plain := if_neg (Ne.symm h.1)
    simp only [State.run, State.step, hplain, ih h.2, Option.toList_none, List.append_nil]

end GraphBlock.Html
