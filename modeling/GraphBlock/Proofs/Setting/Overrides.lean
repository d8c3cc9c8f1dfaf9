import GraphBlock.Setting.Overrides

namespace GraphBlock

theorem Setting.mem_put {s t : Setting} {l : List Setting} (h : t ∈ put s l) : t = s ∨ t ∈ l := by
  induction l with
  | nil => exact .inl (List.mem_singleton.mp h)
  | cons u l ih =>
    by_cases hu : u.key = s.key
    · rw [put, if_pos hu, List.mem_cons] at h
      exact h.imp_right (List.mem_cons_of_mem _)
    · rw [put, if_neg hu, List.mem_cons] at h
      rcases h with rfl | h
      · exact .inr List.mem_cons_self
      · exact (ih h).imp_right (List.mem_cons_of_mem _)

theorem Setting.put_of_mem {s : Setting} {l : List Setting} (hl : (l.map key).Nodup) (hs : s ∈ l) :
    put s l = l := by
  induction l with
  | nil => cases hs
  | cons t l ih =>
    rw [List.map_cons, List.nodup_cons] at hl
    rcases List.mem_cons.mp hs with hs | hs
    · rw [hs, put, if_pos rfl]
    · have hne : t.key ≠ s.key := by
        intro heq
        exact hl.1 (heq ▸ List.mem_map_of_mem hs)
      rw [put, if_neg hne, ih hl.2 hs]

theorem Setting.put_of_not_mem {s : Setting} {l : List Setting} (h : s.key ∉ l.map key) :
    put s l = l ++ [s] := by
  induction l with
  | nil => rfl
  | cons t l ih =>
    rw [List.map_cons, List.mem_cons, not_or] at h
    rw [put, if_neg (Ne.symm h.1), ih h.2, List.cons_append]

theorem Setting.put_append_cons {s t : Setting} {a b : List Setting} (hkey : t.key = s.key)
    (ha : s.key ∉ a.map key) : put s (a ++ t :: b) = a ++ s :: b := by
  induction a with
  | nil => rw [List.nil_append, put, if_pos hkey, List.nil_append]
  | cons u a ih =>
    rw [List.map_cons, List.mem_cons, not_or] at ha
    rw [List.cons_append, put, if_neg (Ne.symm ha.1), ih ha.2, List.cons_append]

namespace Overrides

variable {P : Setting → Prop} {o : Overrides}

theorem forall_put {s : Setting} (hs : P s) (ho : ∀ t ∈ o.entries, P t) :
    ∀ t ∈ (o.put s).entries, P t := by
  intro t ht
  rcases Setting.mem_put ht with rfl | ht
  · exact hs
  · exact ho t ht

theorem forall_putAll {l : List Setting} (hl : ∀ s ∈ l, P s) (ho : ∀ t ∈ o.entries, P t) :
    ∀ t ∈ (o.putAll l).entries, P t := by
  induction l generalizing o with
  | nil => exact ho
  | cons s l ih =>
    exact ih (fun t ht => hl t (List.mem_cons_of_mem _ ht))
      (forall_put (hl s List.mem_cons_self) ho)

theorem entries_putAll (o : Overrides) (l : List Setting) :
    (o.putAll l).entries = l.foldl (fun l s => s.put l) o.entries := by
  induction l generalizing o with
  | nil => rfl
  | cons s l ih => exact ih (o.put s)

theorem entries_putAll_of_new {l : List Setting} (hl : (l.map Setting.key).Nodup)
    (hnew : ∀ s ∈ l, s.key ∉ o.keys) : (o.putAll l).entries = o.entries ++ l := by
  induction l generalizing o with
  | nil => exact (List.append_nil _).symm
  | cons s l ih =>
    rw [List.map_cons, List.nodup_cons] at hl
    have hput : (o.put s).entries = o.entries ++ [s] :=
      Setting.put_of_not_mem (hnew s List.mem_cons_self)
    have hrest : ∀ t ∈ l, t.key ∉ (o.put s).keys := by
      intro t ht
      rw [keys, hput, List.map_append, List.mem_append, not_or]
      refine ⟨hnew t (List.mem_cons_of_mem _ ht), ?_⟩
      rw [List.map_singleton, List.mem_singleton]
      exact fun heq => hl.1 (heq ▸ List.mem_map_of_mem ht)
    rw [putAll, List.foldl_cons, ← putAll, ih hl.2 hrest, hput, List.append_assoc,
      List.singleton_append]

theorem mem_of_edge? {e : Edge} {x : Number} (h : o.edge? e = some x) :
    ∃ d, Setting.edge d x ∈ o.entries := by
  rw [edge?] at h
  split at h
  · next d y hy =>
    cases h
    exact ⟨d, List.mem_of_find?_eq_some hy⟩
  · cases h

theorem foldl_merge (o : Overrides) (us : List Overrides) :
    us.foldl merge o = o.putAll (us.flatMap entries) := by
  induction us generalizing o with
  | nil => rfl
  | cons u us ih => rw [List.foldl_cons, ih, List.flatMap_cons, merge, putAll, putAll, putAll,
      List.foldl_append]

theorem forall_foldl_merge {us : List Overrides} (hus : ∀ u ∈ us, ∀ s ∈ u.entries, P s)
    (ho : ∀ t ∈ o.entries, P t) : ∀ t ∈ (us.foldl merge o).entries, P t := by
  rw [foldl_merge]
  apply forall_putAll _ ho
  intro s hs
  obtain ⟨u, hu, hs⟩ := List.mem_flatMap.mp hs
  exact hus u hu s hs

theorem putAll_of_subset {l : List Setting} (hl : l ⊆ o.entries) : o.putAll l = o := by
  induction l with
  | nil => rfl
  | cons s l ih =>
    have hput : o.put s = o := by
      rw [put]
      congr 1
      exact Setting.put_of_mem o.distinct (hl List.mem_cons_self)
    rw [putAll, List.foldl_cons, hput]
    exact ih fun t ht => hl (List.mem_cons_of_mem _ ht)

theorem merge_self (o : Overrides) : o.merge o = o := putAll_of_subset (List.Subset.refl _)

end Overrides

end GraphBlock
