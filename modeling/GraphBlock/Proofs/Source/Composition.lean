import GraphBlock.Proofs.Setting.Spelling
import GraphBlock.Proofs.Source.Rewrite

namespace GraphBlock.Source

/-- The last write of a key wins, and an update that is made again changes nothing. -/
theorem update_update (source : Text) (u v : Overrides) (hu : ∀ s ∈ u.entries, s.Spellable)
    (hv : ∀ s ∈ v.entries, s.Spellable) :
    ∃ first both, update source (Overrides.toRecord u.entries) = .ok first ∧
      update first (Overrides.toRecord v.entries) = .ok both ∧
      update source (Overrides.toRecord (u.merge v).entries) = .ok both ∧
      update first (Overrides.toRecord u.entries) = .ok first := by
  have hu' : ∀ s ∈ u.entries, IsValue s.toValue.directive := by
    intro s hs
    exact isValue_directive (hu s hs)
  have hv' : ∀ s ∈ v.entries, IsValue s.toValue.directive := by
    intro s hs
    exact isValue_directive (hv s hs)
  have hmerge := rewrite_rewrite source u v hu' hv'
  have hsame := rewrite_rewrite source u u hu' hu'
  rw [Overrides.merge_self] at hsame
  refine ⟨rewrite source (assignments u.entries),
    rewrite source (assignments (u.merge v).entries), update_toRecord source _, ?_,
    update_toRecord source _, ?_⟩
  · rw [update_toRecord, hmerge]
  · rw [update_toRecord, hsame]

theorem update_update_flag_edge_color :
    ∃ first both,
      update "grid; left = -5\n---\ny=x"
        (Overrides.toRecord [.flag .grid false, .edge .left (.int (-20))]) = .ok first ∧
      update first (Overrides.toRecord [.defaultColor (some (.code "#0af")), .flag .grid true]) =
        .ok both ∧
      update "grid; left = -5\n---\ny=x"
        (Overrides.toRecord [.flag .grid true, .edge .left (.int (-20)),
          .defaultColor (some (.code "#0af"))]) = .ok both ∧
      update first (Overrides.toRecord [.flag .grid false, .edge .left (.int (-20))]) = .ok first :=
  update_update "grid; left = -5\n---\ny=x"
    ⟨[.flag .grid false, .edge .left (.int (-20))], by decide⟩
    ⟨[.defaultColor (some (.code "#0af")), .flag .grid true], by decide⟩
    (by simp [Setting.Spellable, Number.Finite])
    (by simp [Setting.Spellable, Color.Spellable])

end GraphBlock.Source
