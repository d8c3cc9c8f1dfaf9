import GraphBlock.Proofs.Graph.Run
import GraphBlock.Proofs.Source.Segments

namespace GraphBlock

namespace Source

/-- A text that can be a directive on a line of its own. -/
structure IsLine (t : Text) : Prop where
  not_delimiter : ∀ c ∈ t, Overrides.isDelimiter c = false
  not_infix : ¬ delimiter <:+: t

instance (t : Text) : Decidable (IsLine t) :=
  decidable_of_iff ((∀ c ∈ t, Overrides.isDelimiter c = false) ∧ ¬ delimiter <:+: t)
    ⟨fun h => ⟨h.1, h.2⟩, fun h => ⟨h.1, h.2⟩⟩

def listed (directives : List Text) (equations : Text) : Text :=
  directives.flatMap (fun t => t ++ ['\n']) ++ delimiter ++ equations

theorem split_listed {directives : List Text} (equations : Text)
    (h : ∀ t ∈ directives, IsLine t) :
    split (listed directives equations) =
      (directives.flatMap fun t => t ++ ['\n'], equations) := by
  have hclear := clear_lines fun t ht => IsLine.not_infix (h t ht)
  rw [split, listed, breakDelimiter?_append _ hclear]
  rfl

end Source

namespace Graph

open Calculator Overrides Source

variable {advise : Text → Option Hint} {directives more : List Text} {equations : Text}

theorem exists_reads_of_perm {lines : List Equation} {hint : Option Hint} {o : Overrides}
    (hperm : directives.Perm more) (hdirectives : ∀ t ∈ directives, IsLine t)
    (h : Reads advise (listed directives equations) lines hint o) :
    ∃ p, Reads advise (listed more equations) lines hint p ∧ ∀ k, o.get? k = p.get? k := by
  have hmore : ∀ t ∈ more, IsLine t := fun t ht => hdirectives t (hperm.mem_iff.mpr ht)
  have hsplit := split_listed equations hmore
  obtain ⟨hsingle, hlines, hsettings⟩ := h
  rw [split_listed equations hdirectives] at hsingle hlines hsettings
  have hsame : (Overrides.directives (directives.flatMap fun t => t ++ ['\n'])).Perm
      (Overrides.directives (more.flatMap fun t => t ++ ['\n'])) := by
    rw [directives_lines fun t ht => (hdirectives t ht).not_delimiter,
      directives_lines fun t ht => (hmore t ht).not_delimiter]
    exact hperm.filterMap _
  obtain ⟨p, hp, hentries⟩ := exists_parse_of_perm hsame hsettings
  exact ⟨p, ⟨by rwa [hsplit], by rwa [hsplit], by rwa [hsplit]⟩, get?_eq_of_perm hentries⟩

theorem exists_parse_of_perm {g : Graph} (hperm : directives.Perm more)
    (hdirectives : ∀ t ∈ directives, IsLine t)
    (hg : parse advise (listed directives equations) = .ok g) :
    ∃ h, parse advise (listed more equations) = .ok h ∧ g.equations = h.equations ∧
      g.settings = h.settings ∧ g.hint = h.hint ∧ State.ofGraph g = State.ofGraph h := by
  obtain ⟨p, hreads, hget⟩ := exists_reads_of_perm hperm hdirectives (reads_of_parse hg)
  have hvalid : (Settings.ofOverrides p.adjusted).validate = .ok () := by
    have heq : Settings.ofOverrides g.written.adjusted = Settings.ofOverrides p.adjusted :=
      Settings.ofOverrides_congr fun k => get?_adjusted_congr (fun e => hget (.edge e)) (hget k)
    rw [← heq]
    exact g.valid
  obtain ⟨h, hbuild⟩ := exists_build g.source g.hint hvalid
  obtain ⟨hsource, hwritten, hhint⟩ := build_eq_ok_iff.mp hbuild
  obtain ⟨hequations, hsettings, hstate⟩ :=
    shown_eq hsource.symm fun k => (hget k).trans (by rw [hwritten])
  exact ⟨h, hreads.parse_eq.trans hbuild, hequations, hsettings, hhint.symm, hstate⟩

/-- The order of directives is irrelevant to the picture. Blocks whose directives are the same up
to their order, above the same equations, are both refused, or are graphs with equal equations,
settings, hint and calculator state. -/
theorem parse_listed_perm (advise : Text → Option Hint) (directives more : List Text)
    (equations : Text)
    (hperm : directives.Perm more) (hdirectives : ∀ t ∈ directives, IsLine t) :
    (∃ e e', parse advise (listed directives equations) = .error e ∧
      parse advise (listed more equations) = .error e') ∨
    ∃ g h, parse advise (listed directives equations) = .ok g ∧
      parse advise (listed more equations) = .ok h ∧
      g.settings = h.settings ∧ g.equations = h.equations ∧ g.hint = h.hint ∧
      State.ofGraph g = State.ofGraph h := by
  have hmore : ∀ t ∈ more, IsLine t := fun t ht => hdirectives t (hperm.mem_iff.mpr ht)
  cases hg : parse advise (listed directives equations) with
  | ok g =>
    obtain ⟨h, hh, hequations, hsettings, hhint, hstate⟩ :=
      exists_parse_of_perm hperm hdirectives hg
    exact .inr ⟨g, h, rfl, hh, hsettings, hequations, hhint, hstate⟩
  | error e =>
    cases hh : parse advise (listed more equations) with
    | error e' => exact .inl ⟨e, e', rfl, rfl⟩
    | ok h =>
      obtain ⟨g, hg', -⟩ := exists_parse_of_perm hperm.symm hmore hh
      rw [hg] at hg'
      cases hg'

theorem parse_listed_perm_edges :
    ∃ g h, parse Hint.bare (listed ["left=30", "defaultColor=red", " top = -40", "grid=false"]
        "\ny=x|x<1") = .ok g ∧
      parse Hint.bare (listed [" top = -40", "grid=false", "left=30", "defaultColor=red"]
        "\ny=x|x<1") = .ok h ∧
      [h.settings.right.text, h.settings.bottom.text] = ["50.0", "-54.0"] ∧
      g.settings = h.settings ∧ g.equations = h.equations ∧ g.hint = h.hint ∧
      State.ofGraph g = State.ofGraph h := by
  have hread : (parse Hint.bare (listed ["left=30", "defaultColor=red", " top = -40", "grid=false"]
      "\ny=x|x<1")).map (fun g => [g.settings.right.text, g.settings.bottom.text]) =
        .ok ["50.0", "-54.0"] := by decide +kernel
  obtain ⟨g, hg, hedges⟩ := map_eq_ok_iff.mp hread
  rcases parse_listed_perm Hint.bare ["left=30", "defaultColor=red", " top = -40", "grid=false"]
    [" top = -40", "grid=false", "left=30", "defaultColor=red"] "\ny=x|x<1"
    (by decide) (by decide) with ⟨e, e', he, -⟩ | ⟨g', h, hg', hh, hsettings, hrest⟩
  · rw [hg] at he
    cases he
  · rw [hg] at hg'
    cases hg'
    exact ⟨g, h, hg, hh, hsettings ▸ hedges, hsettings, hrest⟩

end Graph

end GraphBlock
