import GraphBlock.Proofs.Setting.Overrides
import GraphBlock.Setting.Settings
import Mathlib.Data.List.Basic
import Mathlib.Data.Option.Basic

namespace GraphBlock

namespace Setting

variable {s t : Setting} {l : List Setting} {k : Key}

theorem find?_put (s : Setting) (l : List Setting) (k : Key) :
    (put s l).find? (·.key = k) = if s.key = k then some s else l.find? (·.key = k) := by
  induction l with
  | nil => by_cases h : s.key = k <;> simp [put, h]
  | cons t l ih =>
    by_cases hts : t.key = s.key
    · rw [put, if_pos hts]
      by_cases h : s.key = k <;> simp [hts, h]
    · rw [put, if_neg hts]
      by_cases h : t.key = k
      · have hs : s.key ≠ k := fun heq => hts (h.trans heq.symm)
        simp [h, hs]
      · simp [h, ih]

theorem find?_key (hl : (l.map key).Nodup) (hs : s ∈ l) : l.find? (·.key = s.key) = some s := by
  induction l with
  | nil => cases hs
  | cons t l ih =>
    rw [List.map_cons, List.nodup_cons] at hl
    rcases List.mem_cons.mp hs with rfl | hs
    · simp
    · have hne : t.key ≠ s.key := fun heq => hl.1 (heq ▸ List.mem_map_of_mem hs)
      rw [List.find?_cons_of_neg (by simpa using hne), ih hl.2 hs]

end Setting

namespace Overrides

variable {o p : Overrides} {k : Key}

theorem get?_put (o : Overrides) (s : Setting) (k : Key) :
    (o.put s).get? k = if s.key = k then some s else o.get? k :=
  Setting.find?_put s o.entries k

theorem get?_putAll (o : Overrides) (l : List Setting) (k : Key) :
    (o.putAll l).get? k = ((l.filter (·.key = k)).getLast?).or (o.get? k) := by
  induction l generalizing o with
  | nil => rfl
  | cons s l ih =>
    rw [putAll, List.foldl_cons, ← putAll, ih, get?_put]
    by_cases h : s.key = k
    · rw [if_pos h, List.filter_cons_of_pos (by simpa using h), List.getLast?_cons]
      cases (l.filter (·.key = k)).getLast? <;> rfl
    · rw [if_neg h, List.filter_cons_of_neg (by simpa using h)]

theorem keys_putAll (o : Overrides) (l : List Setting) :
    (o.putAll l).keys = o.keys ++ ((l.map Setting.key).filter (· ∉ o.keys)).eraseDups := by
  induction l generalizing o with
  | nil => simp [putAll]
  | cons s l ih =>
    have hput : (o.put s).keys = if s.key ∈ o.keys then o.keys else o.keys ++ [s.key] :=
      Setting.keys_put s o.entries
    rw [putAll, List.foldl_cons, ← putAll, ih, hput, List.map_cons]
    by_cases h : s.key ∈ o.keys
    · rw [if_pos h, List.filter_cons_of_neg (by simpa using h)]
    · rw [if_neg h, List.filter_cons_of_pos (by simpa using h), List.eraseDups_cons,
        List.filter_filter, List.append_assoc, List.singleton_append]
      congr 3
      apply List.filter_congr
      intro j _
      by_cases hj : j = s.key <;> simp [hj]

theorem get?_of_mem {s : Setting} (hs : s ∈ o.entries) : o.get? s.key = some s :=
  Setting.find?_key o.distinct hs

theorem get?_eq_some_iff {s : Setting} : o.get? k = some s ↔ s ∈ o.entries ∧ s.key = k := by
  constructor
  · intro h
    exact ⟨List.mem_of_find?_eq_some h, by simpa using List.find?_some h⟩
  · rintro ⟨hs, rfl⟩
    exact get?_of_mem hs

theorem get?_eq_of_perm (h : o.entries.Perm p.entries) (k : Key) : o.get? k = p.get? k := by
  apply Option.ext
  intro s
  rw [get?_eq_some_iff, get?_eq_some_iff, h.mem_iff]

/-- A record is known from the order of its keys and their values. -/
theorem ext_get? (hkeys : o.keys = p.keys) (hget : ∀ k, o.get? k = p.get? k) : o = p := by
  have hentries : ∀ o : Overrides, o.entries.map some = o.keys.map o.get? := by
    intro o
    rw [keys, List.map_map]
    exact List.map_congr_left fun s hs => (get?_of_mem hs).symm
  have hsome : o.entries.map some = p.entries.map some := by
    rw [hentries, hentries, hkeys]
    exact List.map_congr_left fun k _ => hget k
  have heq := List.map_injective_iff.mpr (Option.some_injective _) hsome
  cases o
  cases p
  cases heq
  rfl

theorem edge?_congr (h : ∀ e, o.get? (.edge e) = p.get? (.edge e)) : o.edge? = p.edge? := by
  funext e
  rw [edge?, edge?, h]

/-- Inference depends on the edges alone, and leaves the other keys as they are. -/
theorem get?_adjusted_congr (hedges : ∀ e, o.get? (.edge e) = p.get? (.edge e))
    (hk : o.get? k = p.get? k) : o.adjusted.get? k = p.adjusted.get? k := by
  rw [adjusted, adjusted, get?_putAll, get?_putAll, edge?_congr hedges, hk]

theorem get?_adjusted_of_ne_edge (hk : ∀ e, k ≠ .edge e) : o.adjusted.get? k = o.get? k := by
  rw [adjusted, get?_putAll, List.filter_eq_nil_iff.mpr]
  · rfl
  · intro s hs
    obtain ⟨⟨e, x⟩, -, rfl⟩ := List.mem_map.mp hs
    exact fun heq => hk e (of_decide_eq_true heq).symm

theorem adjusted_of_edges (h : ∀ e, (o.edge? e).isSome = true) : o.adjusted = o := by
  have hnone : ∀ e, Edge.inferred? o.edge? e = none := by
    intro e
    obtain ⟨x, hx⟩ := Option.isSome_iff_exists.mp (h e)
    rw [Edge.inferred?, hx]
  rw [adjusted, Edge.inferred]
  simp only [hnone, Option.map_none, List.filterMap_cons, List.filterMap_nil]
  rfl

end Overrides

namespace Settings

variable {s : Settings} {t : Setting}

theorem filter_toList (s : Settings) (k : Key) : s.toList.filter (·.key = k) = [s.get k] := by
  have hone : ∀ k ∈ Key.all, Key.all.filter (· = k) = [k] := by decide
  calc s.toList.filter (·.key = k)
      = (Key.all.filter (· = k)).map s.get := by
        rw [toList, List.filter_map]
        simp [Function.comp_def]
    _ = [s.get k] := by rw [hone k (Key.mem_all k), List.map_singleton]

theorem ext_get {s t : Settings} (h : ∀ k, s.get k = t.get k) : s = t := by
  obtain ⟨_, _, _, _, _, _, _, _, _, _, _⟩ := s
  obtain ⟨_, _, _, _, _, _, _, _, _, _, _⟩ := t
  cases h (.size .width)
  cases h (.size .height)
  cases h (.edge .left)
  cases h (.edge .right)
  cases h (.edge .bottom)
  cases h (.edge .top)
  cases h (.flag .grid)
  cases h (.flag .lock)
  cases h (.flag .hideAxisNumbers)
  cases h .degreeMode
  cases h .defaultColor
  rfl

theorem get_key_of_mem (ht : t ∈ s.toList) : s.get t.key = t := by
  obtain ⟨k, -, hk⟩ := List.mem_map.mp ht
  rw [← hk, key_get]

theorem get_merged (s : Settings) (o : Overrides) (k : Key) :
    (s.merged o).get k = (o.get? k).getD (s.get k) := by
  have hfold : ∀ (l : List Setting) (s : Settings), (l.map Setting.key).Nodup →
      (l.foldl set s).get k = (l.find? (·.key = k)).getD (s.get k) := by
    intro l
    induction l with
    | nil => exact fun _ _ => rfl
    | cons t l ih =>
      intro s hl
      rw [List.map_cons, List.nodup_cons] at hl
      rw [List.foldl_cons, ih _ hl.2, get_set]
      by_cases h : t.key = k
      · have hnone : l.find? (·.key = k) = none := by
          rw [List.find?_eq_none]
          intro u hu heq
          rw [decide_eq_true_eq, ← h] at heq
          exact hl.1 (heq ▸ List.mem_map_of_mem hu)
        simp [h, hnone]
      · simp [h]
  exact hfold o.entries s o.distinct

theorem ofOverrides_congr {o p : Overrides} (h : ∀ k, o.get? k = p.get? k) :
    ofOverrides o = ofOverrides p := by
  apply ext_get
  intro k
  rw [ofOverrides, ofOverrides, get_merged, get_merged, h]

end Settings

end GraphBlock
