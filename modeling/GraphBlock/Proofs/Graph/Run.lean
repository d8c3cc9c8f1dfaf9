import GraphBlock.Graph.Calculator
import GraphBlock.Proofs.Graph.Live
import GraphBlock.Proofs.Setting.Lookup

/-!
Runs of updates. A run ends at the graph that one build from the merged record gives, so nothing
that was inferred or painted on the way is left, and only the last value of each key counts.
-/

namespace GraphBlock

open Overrides

namespace Overrides

def lastOf? (us : List Overrides) (k : Key) : Option Setting :=
  ((us.flatMap entries).filter (·.key = k)).getLast?

/-- The keys that updates add to a record, in the order in which they first appear. -/
def newKeys (o : Overrides) (us : List Overrides) : List Key :=
  ((us.flatMap keys).filter (· ∉ o.keys)).eraseDups

theorem get?_foldl_merge (o : Overrides) (us : List Overrides) (k : Key) :
    (us.foldl merge o).get? k = (lastOf? us k).or (o.get? k) := by
  rw [foldl_merge, get?_putAll, lastOf?]

theorem keys_foldl_merge (o : Overrides) (us : List Overrides) :
    (us.foldl merge o).keys = o.keys ++ newKeys o us := by
  rw [foldl_merge, keys_putAll, newKeys, List.map_flatMap]
  rfl

end Overrides

namespace Graph

open Calculator

theorem shown_eq {g h : Graph} (hsource : g.source = h.source)
    (hwritten : ∀ k, g.written.get? k = h.written.get? k) :
    g.equations = h.equations ∧ g.settings = h.settings ∧ State.ofGraph g = State.ofGraph h := by
  have hsettings : g.settings = h.settings :=
    Settings.ofOverrides_congr fun k =>
      get?_adjusted_congr (fun e => hwritten (.edge e)) (hwritten k)
  have hequations : g.equations = h.equations := by
    rw [equations, equations, hsource, hsettings]
  refine ⟨hequations, hsettings, ?_⟩
  rw [State.ofGraph, State.ofGraph, hequations, hsettings]

/-- A run of updates ends at the graph built from the merged record, and two runs that leave each
key the same value end at graphs that show the same; these also have the same hash where the new
keys first appear in the same order. -/
theorem withAll_traceless (g h : Graph) (us : List Overrides) (hus : g.withAll us = .ok h) :
    build g.source (us.foldl merge g.written) g.hint = .ok h ∧
      ∀ vs k, g.withAll vs = .ok k → (∀ key, lastOf? us key = lastOf? vs key) →
        h.equations = k.equations ∧ h.settings = k.settings ∧ h.hint = k.hint ∧
          State.ofGraph h = State.ofGraph k ∧
          (newKeys g.written us = newKeys g.written vs → h.hash = k.hash) := by
  obtain ⟨hsource, hwritten, hhint⟩ := withAll_eq_ok hus
  refine ⟨build_eq_ok_iff.mpr ⟨hsource, hwritten, hhint⟩, ?_⟩
  intro vs k hvs hlast
  obtain ⟨ksource, kwritten, khint⟩ := withAll_eq_ok hvs
  have hget : ∀ key, h.written.get? key = k.written.get? key := by
    intro key
    rw [hwritten, kwritten, get?_foldl_merge, get?_foldl_merge, hlast]
  obtain ⟨hequations, hsettings, hstate⟩ := shown_eq (hsource.trans ksource.symm) hget
  refine ⟨hequations, hsettings, hhint.trans khint.symm, hstate, fun hkeys => ?_⟩
  have heq : h.written = k.written := by
    apply ext_get? _ hget
    rw [hwritten, kwritten, keys_foldl_merge, keys_foldl_merge, hkeys]
  rw [hash, hash, content, content, hsource, ksource, heq]

theorem withAll_traceless_inferred :
    ∃ g h k, build [⟨"y=x", none, none, none, none, none⟩] .empty none = .ok g ∧
      g.withAll [⟨[.edge .left (.int 30)], by decide⟩,
        ⟨[.edge .right (.int 50), .defaultColor (some (.named .red))], by decide⟩,
        ⟨[.defaultColor none, .edge .left (.int 5)], by decide⟩] = .ok h ∧
      g.withAll [⟨[.edge .left (.int 5)], by decide⟩,
        ⟨[.edge .right (.int 50), .defaultColor none], by decide⟩] = .ok k ∧
      build g.source ⟨[.edge .left (.int 5), .edge .right (.int 50), .defaultColor none],
        by decide⟩ g.hint = .ok h ∧
      h.equations = k.equations ∧ h.settings = k.settings ∧ State.ofGraph h = State.ofGraph k ∧
      h.hash = k.hash := by
  have hus : (build [⟨"y=x", none, none, none, none, none⟩] .empty none >>= fun g =>
      g.withAll [⟨[.edge .left (.int 30)], by decide⟩,
        ⟨[.edge .right (.int 50), .defaultColor (some (.named .red))], by decide⟩,
        ⟨[.defaultColor none, .edge .left (.int 5)], by decide⟩]).isOk = true := by decide +kernel
  have hvs : (build [⟨"y=x", none, none, none, none, none⟩] .empty none >>= fun g =>
      g.withAll [⟨[.edge .left (.int 5)], by decide⟩,
        ⟨[.edge .right (.int 50), .defaultColor none], by decide⟩]).isOk = true := by
    decide +kernel
  obtain ⟨h, hh⟩ := exists_ok hus
  obtain ⟨k, hk⟩ := exists_ok hvs
  obtain ⟨g, hg, hh⟩ := bind_eq_ok_iff.mp hh
  rw [hg] at hk
  obtain ⟨-, hwritten, -⟩ := build_eq_ok_iff.mp hg
  obtain ⟨hbuild, hruns⟩ := withAll_traceless g h _ hh
  have hlast : ∀ key ∈ Key.all,
      lastOf? [⟨[.edge .left (.int 30)], by decide⟩,
        ⟨[.edge .right (.int 50), .defaultColor (some (.named .red))], by decide⟩,
        ⟨[.defaultColor none, .edge .left (.int 5)], by decide⟩] key =
      lastOf? [⟨[.edge .left (.int 5)], by decide⟩,
        ⟨[.edge .right (.int 50), .defaultColor none], by decide⟩] key := by decide
  obtain ⟨hequations, hsettings, -, hstate, hhash⟩ :=
    hruns _ k hk fun key => hlast key (Key.mem_all key)
  rw [hwritten] at hbuild hhash
  exact ⟨g, h, k, hg, hh, hk, hbuild, hequations, hsettings, hstate, hhash (by decide +kernel)⟩

end Graph

end GraphBlock
