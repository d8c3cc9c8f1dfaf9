import GraphBlock.Json
import Mathlib.Data.List.Induction
import Mathlib.Data.List.Nodup

namespace GraphBlock

namespace Json

theorem putEntry_of_not_mem {key : Text} {value : Json} {entries : List (Text × Json)}
    (h : key ∉ entries.map Prod.fst) : putEntry key value entries = entries ++ [(key, value)] := by
  induction entries with
  | nil => rfl
  | cons e entries ih =>
    rw [List.map_cons, List.mem_cons, not_or] at h
    rw [putEntry, if_neg (Ne.symm h.1), ih h.2, List.cons_append]

theorem ofEntries_eq {entries : List (Text × Json)} (h : (entries.map Prod.fst).Nodup) :
    ofEntries entries = object entries := by
  rw [ofEntries]
  congr 1
  induction entries using List.reverseRecOn with
  | nil => rfl
  | append_singleton entries e ih =>
    rw [List.map_append, List.nodup_append] at h
    have hfresh : e.1 ∉ entries.map Prod.fst := by
      intro hmem
      exact h.2.2 _ hmem e.1 (by simp) rfl
    rw [List.foldl_append, ih h.1, List.foldl_cons, List.foldl_nil, putEntry_of_not_mem hfresh]

end Json

namespace Value

theorem jsonItems_eq_map (items : List Value) : jsonItems items = items.map json := by
  induction items with
  | nil => rfl
  | cons v items ih => rw [jsonItems, ih, List.map_cons]

theorem jsonEntries_eq_map (entries : List (Value × Value)) :
    jsonEntries entries = entries.map fun e => (e.1.plain, e.2.json) := by
  induction entries with
  | nil => rfl
  | cons e entries ih => rw [jsonEntries, ih, List.map_cons]

end Value

end GraphBlock
