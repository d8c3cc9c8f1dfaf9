import GraphBlock.Proofs.Json.Tree
import GraphBlock.Proofs.Json.Unique

/-!
What the canonical text of a value tells about it. Members become the texts of their values, floats
that are integers become integers and tuples become lists, at every depth; up to that the text
determines the value, with the order of its items and of its keys.
-/

namespace GraphBlock

namespace Json

mutual

def toValue : Json → Value
  | null => .null
  | bool b => .bool b
  | int n => .int n
  | float x => .float x
  | string t => .text t
  | array items => .list (toValues items)
  | object entries => .record (toEntries entries)

def toValues : List Json → List Value
  | [] => []
  | a :: as => a.toValue :: toValues as

def toEntries : List (Text × Json) → List (Value × Value)
  | [] => []
  | (k, a) :: es => (.text k, a.toValue) :: toEntries es

end

end Json

namespace Value

mutual

/-- A value with every member, float and sequence in the one form that its canonical text knows. -/
def normal : Value → Value
  | null => null
  | bool b => bool b
  | int n => int n
  | float x => match x.toInt? with
    | some n => int n
    | none => float x
  | text t => text t
  | member m => text m.value
  | list items => list (normalItems items)
  | tuple items => list (normalItems items)
  | record entries => record (normalEntries entries)

def normalItems : List Value → List Value
  | [] => []
  | v :: vs => v.normal :: normalItems vs

def normalEntries : List (Value × Value) → List (Value × Value)
  | [] => []
  | (k, v) :: es => (k, v.normal) :: normalEntries es

end

/-- Values in which the keys of every record are texts, each of which comes once. -/
inductive Keyed : Value → Prop
  | null : Keyed null
  | bool (b : Bool) : Keyed (bool b)
  | int (n : Int) : Keyed (int n)
  | float (x : Binary64) : Keyed (float x)
  | text (t : Text) : Keyed (text t)
  | member (m : Member) : Keyed (member m)
  | list {items : List Value} (keyed : ∀ v ∈ items, v.Keyed) : Keyed (list items)
  | tuple {items : List Value} (keyed : ∀ v ∈ items, v.Keyed) : Keyed (tuple items)
  | record {entries : List (Value × Value)} (distinct : (entries.map Prod.fst).Nodup)
      (texts : ∀ e ∈ entries, ∃ t, e.1 = .text t) (keyed : ∀ e ∈ entries, e.2.Keyed) :
      Keyed (record entries)

/-! The tree of a value is that of its normal form. -/

mutual

theorem json_normal (v : Value) : v.normal.json = v.json := by
  match v with
  | null => rfl
  | bool _ => rfl
  | int _ => rfl
  | float x =>
    rw [normal]
    cases hx : x.toInt? with
    | some n => simp only [json, hx]
    | none => rfl
  | text _ => rfl
  | member _ => rfl
  | list items => rw [normal, json, json, jsonItems_normal items]
  | tuple items => rw [normal, json, json, jsonItems_normal items]
  | record entries => rw [normal, json, json, jsonEntries_normal entries]

theorem jsonItems_normal (items : List Value) :
    jsonItems (normalItems items) = jsonItems items := by
  match items with
  | [] => rfl
  | v :: items => rw [normalItems, jsonItems, jsonItems, json_normal v, jsonItems_normal items]

theorem jsonEntries_normal (entries : List (Value × Value)) :
    jsonEntries (normalEntries entries) = jsonEntries entries := by
  match entries with
  | [] => rfl
  | (k, v) :: entries =>
    rw [normalEntries, jsonEntries, jsonEntries, json_normal v, jsonEntries_normal entries]

end

theorem nodup_keys {entries : List (Value × Value)} (distinct : (entries.map Prod.fst).Nodup)
    (texts : ∀ e ∈ entries, ∃ t, e.1 = text t) : ((jsonEntries entries).map Prod.fst).Nodup := by
  have hkeys : (jsonEntries entries).map Prod.fst = (entries.map Prod.fst).map plain := by
    rw [jsonEntries_eq_map, List.map_map, List.map_map]
    rfl
  have htext : ∀ k ∈ entries.map Prod.fst, ∃ t, k = text t := by
    intro k hk
    obtain ⟨e, he, rfl⟩ := List.mem_map.mp hk
    exact texts e he
  rw [hkeys]
  refine List.Nodup.map_on ?_ distinct
  intro k hk l hl hkl
  obtain ⟨t, rfl⟩ := htext k hk
  obtain ⟨u, rfl⟩ := htext l hl
  exact congrArg text hkl

/-! Read back from its tree, a value comes in its normal form. -/

mutual

theorem toValue_json {v : Value} (h : v.Keyed) : v.json.toValue = v.normal := by
  match v, h with
  | null, _ => rfl
  | bool _, _ => rfl
  | int _, _ => rfl
  | float x, _ =>
    rw [json, normal]
    cases x.toInt? with
    | some n => rfl
    | none => rfl
  | text _, _ => rfl
  | member _, _ => rfl
  | list items, .list keyed => rw [json, normal, Json.toValue, toValues_jsonItems keyed]
  | tuple items, .tuple keyed => rw [json, normal, Json.toValue, toValues_jsonItems keyed]
  | record entries, .record distinct texts keyed =>
    rw [json, normal, Json.ofEntries_eq (nodup_keys distinct texts), Json.toValue,
      toEntries_jsonEntries texts keyed]

theorem toValues_jsonItems {items : List Value} (keyed : ∀ v ∈ items, v.Keyed) :
    Json.toValues (jsonItems items) = normalItems items := by
  match items with
  | [] => rfl
  | v :: items =>
    obtain ⟨hv, hitems⟩ := List.forall_mem_cons.mp keyed
    rw [jsonItems, Json.toValues, normalItems, toValue_json hv, toValues_jsonItems hitems]

theorem toEntries_jsonEntries {entries : List (Value × Value)}
    (texts : ∀ e ∈ entries, ∃ t, e.1 = .text t) (keyed : ∀ e ∈ entries, e.2.Keyed) :
    Json.toEntries (jsonEntries entries) = normalEntries entries := by
  match entries with
  | [] => rfl
  | (k, v) :: entries =>
    obtain ⟨⟨t, hk⟩, htexts⟩ := List.forall_mem_cons.mp texts
    obtain ⟨hv, hentries⟩ := List.forall_mem_cons.mp keyed
    have hplain : text k.plain = k := by
      rw [show k = text t from hk]
      rfl
    rw [jsonEntries, Json.toEntries, normalEntries, hplain, toValue_json hv,
      toEntries_jsonEntries htexts hentries]

end

/-- A canonical text identifies a value up to its normal form. -/
theorem canonical_eq_iff {v w : Value} (hv : v.Keyed) (hw : w.Keyed) :
    v.canonical = w.canonical ↔ v.normal = w.normal := by
  constructor
  · intro h
    have hjson : v.json = w.json := Json.text_injective h
    rw [← toValue_json hv, ← toValue_json hw, hjson]
  · intro h
    have hjson : v.json = w.json := by rw [← json_normal v, ← json_normal w, h]
    rw [canonical, canonical, hjson]

theorem canonical_eq_iff_nested :
    (record [(text "a", tuple [float (.ofInt 1), float (.zero true),
          member (.color .red)])]).canonical =
        (record [(text "a", list [int 1, int 0, text "#ff0000"])]).canonical ∧
      (list [bool true]).canonical ≠ (tuple [int 1]).canonical := by
  have hone : (Binary64.ofInt 1).toInt? = some 1 := by decide +kernel
  have hzero : (Binary64.zero true).toInt? = some 0 := by decide +kernel
  have hred : (Member.color .red).value = "#ff0000" := rfl
  constructor
  · refine (canonical_eq_iff ?_ ?_).mpr ?_
    · exact .record (by simp) (by simp) (by simp [Keyed.tuple, Keyed.float, Keyed.member])
    · exact .record (by simp) (by simp) (by simp [Keyed.list, Keyed.int, Keyed.text])
    · simp only [normal, normalEntries, normalItems, hone, hzero, hred]
  · refine (canonical_eq_iff ?_ ?_).not.mpr ?_
    · exact .list (by simp [Keyed.bool])
    · exact .tuple (by simp [Keyed.int])
    · simp [normal, normalItems]

end Value

end GraphBlock
