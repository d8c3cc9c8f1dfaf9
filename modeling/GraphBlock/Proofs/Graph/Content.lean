import GraphBlock.Graph.Basic
import GraphBlock.Proofs.Json.Tree
import GraphBlock.Proofs.Setting.Agreement

namespace GraphBlock

theorem Value.json_ofNumber_cases (a : Number) :
    (∃ n, (Number.int n).Same a ∧ (ofNumber a).json = .int n) ∨
      ∃ x, a = .float x ∧ x.toInt? = none ∧ (ofNumber a).json = .float x := by
  cases a with
  | int n => exact .inl ⟨n, .refl _, rfl⟩
  | float x =>
    cases hx : x.toInt? with
    | none => exact .inr ⟨x, rfl, hx, by simp only [ofNumber, json, hx]⟩
    | some n =>
      exact .inl ⟨n, Number.same_int_float_iff.mpr hx, by simp only [ofNumber, json, hx]⟩

/-- The tree of a number tells its place and nothing else about it. -/
theorem Value.json_ofNumber_eq_iff {a b : Number} :
    (ofNumber a).json = (ofNumber b).json ↔ a.Same b := by
  rcases json_ofNumber_cases a with ⟨m, hm, ha⟩ | ⟨x, rfl, hx, ha⟩
  · rcases json_ofNumber_cases b with ⟨n, hn, hb⟩ | ⟨y, rfl, hy, hb⟩
    · rw [ha, hb, Json.int.injEq, ← Number.same_int_iff]
      constructor
      · intro h
        exact hm.symm.trans (h.trans hn)
      · intro h
        exact hm.trans (h.trans hn.symm)
    · rw [ha, hb]
      simp only [reduceCtorEq, false_iff]
      intro h
      have hint := Number.same_int_float_iff.mp (hm.trans h)
      rw [hy] at hint
      cases hint
  · rcases json_ofNumber_cases b with ⟨n, hn, hb⟩ | ⟨y, rfl, hy, hb⟩
    · rw [ha, hb]
      simp only [reduceCtorEq, false_iff]
      intro h
      have hint := Number.same_int_float_iff.mp (hn.trans h.symm)
      rw [hx] at hint
      cases hint
    · rw [ha, hb, Json.float.injEq, Number.same_float_iff]
      constructor
      · exact .inl
      · intro h
        rcases h with h | ⟨hzero, -⟩
        · exact h
        · have hint := Binary64.toInt?_eq_some_iff (n := 0).mpr (by rw [Int.zero_mul]; exact hzero)
          rw [hx] at hint
          cases hint

theorem Setting.Same.json_eq {s t : Setting} (h : s.Same t) : s.toValue.json = t.toValue.json := by
  cases h with
  | size d h => exact Value.json_ofNumber_eq_iff.mpr h
  | edge e h => exact Value.json_ofNumber_eq_iff.mpr h
  | refl _ => rfl

namespace Graph

theorem json_content (g : Graph) :
    g.content.json = .ofEntries
      [("equations".toList, .array (g.source.map fun e => e.toValue.json)),
        ("settings".toList,
          .ofEntries (g.written.adjusted.entries.map fun s => (s.key.name, s.toValue.json)))] := by
  have hitems : ∀ es : List Equation,
      Value.jsonItems (es.map Equation.toValue) = es.map fun e => e.toValue.json := by
    intro es
    rw [Value.jsonItems_eq_map, List.map_map]
    rfl
  have hentries : ∀ l : List Setting,
      Value.jsonEntries ((Overrides.toRecord l).map fun entry => (.text entry.1, entry.2)) =
        l.map fun s => (s.key.name, s.toValue.json) := by
    intro l
    rw [Overrides.toRecord, Value.jsonEntries_eq_map, List.map_map, List.map_map]
    rfl
  rw [← hentries]
  simp only [content, Value.json, Value.jsonEntries, hitems]
  rfl

theorem hash_eq {g h : Graph} (hsource : g.source = h.source)
    (hsame : g.written.adjusted.Same h.written.adjusted) : g.hash = h.hash := by
  have hsettings : (g.written.adjusted.entries.map fun s => (s.key.name, s.toValue.json)) =
      h.written.adjusted.entries.map fun s => (s.key.name, s.toValue.json) := by
    rw [Overrides.Same] at hsame
    generalize g.written.adjusted.entries = l at hsame ⊢
    generalize h.written.adjusted.entries = m at hsame ⊢
    induction hsame with
    | nil => rfl
    | cons hst _ ih => rw [List.map_cons, List.map_cons, ih, hst.key_eq, hst.json_eq]
  have hjson : g.content.json = h.content.json := by
    rw [json_content, json_content, hsource, hsettings]
  calc g.hash
      = Text.sha256 g.content.json.text := rfl
    _ = Text.sha256 h.content.json.text := by rw [hjson]
    _ = h.hash := rfl

end Graph

end GraphBlock
