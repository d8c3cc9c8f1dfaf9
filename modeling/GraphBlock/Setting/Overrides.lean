import GraphBlock.Setting.Basic
import GraphBlock.Text.Pieces

/-!
The settings that an author wrote, in the order written, each key at most once. They override the
defaults.
-/

namespace GraphBlock

namespace Setting

def put (s : Setting) : List Setting → List Setting
  | [] => [s]
  | t :: ts => if t.key = s.key then s :: ts else t :: put s ts

theorem keys_put (s : Setting) (l : List Setting) :
    (put s l).map key = if s.key ∈ l.map key then l.map key else l.map key ++ [s.key] := by
  induction l with
  | nil => simp [put]
  | cons t ts ih =>
    by_cases h : t.key = s.key
    · simp [put, h]
    · have h' : s.key ≠ t.key := Ne.symm h
      simp only [put, if_neg h, List.map_cons, ih, List.mem_cons, h', false_or]
      split <;> rfl

theorem nodup_put {s : Setting} {l : List Setting} (h : (l.map key).Nodup) :
    ((put s l).map key).Nodup := by
  rw [keys_put]
  split
  · exact h
  · rename_i hs
    rw [List.nodup_append]
    refine ⟨h, by simp, ?_⟩
    rintro a ha b hb rfl
    simp only [List.mem_singleton] at hb
    exact hs (hb ▸ ha)

end Setting

structure Overrides where
  entries : List Setting
  distinct : (entries.map Setting.key).Nodup
  deriving DecidableEq, Repr

namespace Overrides

def empty : Overrides := ⟨[], .nil⟩

def put (o : Overrides) (s : Setting) : Overrides :=
  ⟨s.put o.entries, Setting.nodup_put o.distinct⟩

def putAll (o : Overrides) (settings : List Setting) : Overrides := settings.foldl put o

def merge (o updates : Overrides) : Overrides := o.putAll updates.entries

def keys (o : Overrides) : List Key := o.entries.map Setting.key

def get? (o : Overrides) (k : Key) : Option Setting := o.entries.find? (·.key = k)

def edge? (o : Overrides) (e : Edge) : Option Number :=
  match o.get? (.edge e) with
  | some (.edge _ x) => some x
  | _ => none

structure Directive where
  key : Text
  value : Option Text
  deriving DecidableEq, Repr

def Directive.ofText (t : Text) : Directive :=
  match Text.breakAt? '=' t with
  | some (key, value) => ⟨Text.trim key, some (Text.trim value)⟩
  | none => ⟨Text.trim t, none⟩

def isDelimiter (c : Char) : Bool := c == ';' || c == '\r' || c == '\n'

def directives (segment : Text) : List Directive :=
  (Text.parts isDelimiter segment).map .ofText

/-- Adds a directive. An unknown key is reported first, then a repeated one, then a bad value. -/
def add (o : Overrides) (d : Directive) : Except GraphError Overrides :=
  match Key.named? d.key with
  | none => .error (.unknownField d.key)
  | some k =>
    if k ∈ o.keys then .error (.duplicateKey d.key) else (Setting.read k d.value).map o.put

def ofDirectives (ds : List Directive) : Except GraphError Overrides := ds.foldlM add empty

def parse : Option Text → Except GraphError Overrides
  | none => .ok empty
  | some segment => ofDirectives (directives segment)

def toRecord (settings : List Setting) : List (Text × Value) :=
  settings.map fun s => (s.key.name, s.toValue)

def ofRecord (record : List (Text × Value)) : Except GraphError Overrides := do
  let keys ← record.mapM fun (name, v) =>
    match Key.named? name with
    | some k => .ok (k, v)
    | none => .error (.unknownField name)
  let settings ← keys.mapM fun (k, v) => Setting.ofValue k v
  return empty.putAll settings

end Overrides

end GraphBlock
