import GraphBlock.Proofs.Equation.Read
import GraphBlock.Proofs.Graph.Live
import GraphBlock.Proofs.Setting.Placed

/-!
Every graph that can be reached is well-formed. A graph that is read holds what its lines say and
numbers that can be compared; an update keeps both, and what is drawn follows from them.
-/

namespace GraphBlock

open Overrides

theorem Source.not_infix_of_segments {source equations : Text} {settings : Option Text}
    (h : segments source = .ok (settings, equations)) : ¬ delimiter <:+: equations := by
  rw [segments] at h
  split at h
  · next hnone =>
    cases h
    exact breakDelimiter?_eq_none_iff.mp hnone
  · split at h
    · cases h
    · next hsingle =>
      cases h
      exact breakDelimiter?_eq_none_iff.mp (by simpa using hsingle)

theorem Equation.WellFormed.painted {e : Equation} {default : Option Color} (he : e.WellFormed)
    (hdefault : ∀ c, default = some c → c.Readable) : (e.painted default).WellFormed := by
  refine { he with color := ?_ }
  intro c hc
  rcases Option.or_eq_some_iff.mp hc with hc | ⟨-, hc⟩
  · exact he.color c hc
  · exact hdefault c hc

namespace EquationLine

def ReadAs (advise : Text → Option Hint) (line : Text) (e : Equation) : Prop :=
  e.WellFormed ∧ ∃ l, parse advise line = .ok l ∧ l.equation = e

/-- An equation that is drawn for a line: well-formed, never without a color where there is a
default one, and the equation that the line is read as but for a color that it did not have. -/
structure DrawnAs (advise : Text → Option Hint) (default : Option Color) (line : Text)
    (e : Equation) : Prop where
  wellFormed : e.WellFormed
  colored : default ≠ none → e.color ≠ none
  read : ∃ l, parse advise line = .ok l ∧ e = { l.equation with color := e.color } ∧
    ∀ c, l.equation.color = some c → e.color = some c

variable {advise : Text → Option Hint}

theorem ReadAs.painted {line : Text} {e : Equation} {default : Option Color}
    (h : ReadAs advise line e) (hdefault : ∀ c, default = some c → c.Readable) :
    DrawnAs advise default line (e.painted default) := by
  obtain ⟨hwell, l, hparse, heq⟩ := h
  refine ⟨hwell.painted hdefault, ?_, l, hparse, ?_, ?_⟩
  · intro hne
    cases default with
    | none => exact absurd rfl hne
    | some c =>
      rw [Equation.painted]
      cases e.color <;> simp
  · rw [heq]
    rfl
  · intro c hc
    rw [heq] at hc
    rw [Equation.painted, hc]
    rfl

theorem forall₂_readAs {source equations : Text} {settings : Option Text} {read : List EquationLine}
    (hsegments : Source.segments source = .ok (settings, equations))
    (h : (Text.lines equations).mapM (parse advise) = .ok read) :
    List.Forall₂ (ReadAs advise) (Text.lines equations) (read.map (·.equation)) := by
  have hlines : ∀ line ∈ Text.lines equations,
      (∀ c ∈ line, Text.isLineBreak c = false) ∧ ¬ Source.delimiter <:+: line := by
    intro line hline
    obtain ⟨hpart, hin⟩ := Text.mem_parts hline
    exact ⟨hpart.not_delimiter, fun h => Source.not_infix_of_segments hsegments (h.trans hin)⟩
  rw [List.forall₂_map_right_iff]
  refine (List.forall₂_and_left _ _ |>.mpr ⟨hlines, forall₂_of_mapM h⟩).imp ?_
  intro line l hl
  obtain ⟨⟨hbreak, hfree⟩, hparse⟩ := hl
  exact ⟨wellFormed_of_parse hbreak hfree hparse, l, hparse, rfl⟩

end EquationLine

namespace Graph

variable {advise : Text → Option Hint} {lines : List Text} {g h : Graph} {source : Text}
  {us : List Overrides}

/-- What holds of a graph that is read from some lines, and still holds after updates. -/
structure Sound (advise : Text → Option Hint) (lines : List Text) (g : Graph) : Prop where
  equations : List.Forall₂ (EquationLine.ReadAs advise) lines g.source
  settings : ∀ s ∈ g.written.entries, s.Placed

/-- A graph that keeps the rules and draws one well-formed equation for each line, in order. -/
structure WellFormed (advise : Text → Option Hint) (lines : List Text) (g : Graph) : Prop where
  ordered : g.settings.Ordered
  equations : List.Forall₂ (EquationLine.DrawnAs advise g.settings.defaultColor) lines g.equations

theorem sound_of_parse (hparse : parse advise source = .ok g) :
    ∃ settings equations, Source.segments source = .ok (settings, equations) ∧
      Sound advise (Text.lines equations) g := by
  obtain ⟨⟨settings, equations⟩, hsegments, hparse⟩ := bind_eq_ok_iff.mp hparse
  obtain ⟨⟨read, hint⟩, hlines, hparse⟩ := bind_eq_ok_iff.mp hparse
  obtain ⟨o, hsettings, hbuild⟩ := bind_eq_ok_iff.mp hparse
  obtain ⟨ls, hls, heq⟩ := bind_eq_ok_iff.mp hlines
  cases heq
  obtain ⟨hsource, hwritten, -⟩ := build_eq_ok_iff.mp hbuild
  refine ⟨settings, equations, hsegments, ?_, ?_⟩
  · rw [hsource]
    exact EquationLine.forall₂_readAs hsegments hls
  · rw [hwritten]
    exact placed_of_parse hsettings

theorem Sound.withSettings {u : Overrides} (hg : Sound advise lines g)
    (hu : ∀ s ∈ u.entries, s.Placed) (hupdate : g.withSettings u = .ok h) :
    Sound advise lines h := by
  obtain ⟨hsource, hwritten, -⟩ := build_eq_ok_iff.mp hupdate
  refine ⟨?_, ?_⟩
  · rw [hsource]
    exact hg.equations
  · rw [hwritten]
    exact forall_putAll hu hg.settings

theorem Sound.withAll (hg : Sound advise lines g) (hus : ∀ u ∈ us, ∀ s ∈ u.entries, s.Placed)
    (hall : g.withAll us = .ok h) : Sound advise lines h := by
  refine foldlM_induction (P := Sound advise lines) ?_ hg hall
  intro u hu g h hg hupdate
  exact hg.withSettings (hus u hu) hupdate

theorem Sound.wellFormed (hg : Sound advise lines g) : WellFormed advise lines g := by
  have hplaced : ∀ k, (g.settings.get k).Placed :=
    Settings.placed_get (placed_adjusted hg.settings)
  have hdefault : ∀ c, g.settings.defaultColor = some c → c.Readable := hplaced .defaultColor
  refine ⟨Settings.ordered_of_validate hplaced g.valid, ?_⟩
  rw [Graph.equations, List.forall₂_map_right_iff]
  exact hg.equations.imp fun line e he => he.painted hdefault

/-- Every graph that a run of updates reaches from a block is well-formed. -/
theorem wellFormed_of_withAll (advise : Text → Option Hint) (source : Text) (g : Graph)
    (hparse : parse advise source = .ok g)
    (us : List Overrides) (hus : ∀ u ∈ us, ∀ s ∈ u.entries, s.Placed) (h : Graph)
    (hall : g.withAll us = .ok h) :
    ∃ settings equations, Source.segments source = .ok (settings, equations) ∧
      WellFormed advise (Text.lines equations) h := by
  obtain ⟨settings, equations, hsegments, hg⟩ := sound_of_parse hparse
  exact ⟨settings, equations, hsegments, (hg.withAll hus hall).wellFormed⟩

theorem wellFormed_of_withAll_colored :
    ∃ g h, parse Hint.bare "left=20\n---\ny=x | x<1\n\ny=2|RED|label" = .ok g ∧
      g.withAll [⟨[.defaultColor (some (.code "#00f"))], by decide⟩,
        ⟨[.edge .left (.int 30), .size .width (.int 700)], by decide⟩] = .ok h ∧
      WellFormed Hint.bare ["y=x | x<1", "y=2|RED|label"] h := by
  have hall : (parse Hint.bare "left=20\n---\ny=x | x<1\n\ny=2|RED|label" >>= fun g =>
      g.withAll [⟨[.defaultColor (some (.code "#00f"))], by decide⟩,
        ⟨[.edge .left (.int 30), .size .width (.int 700)], by decide⟩]).isOk = true := by
    decide +kernel
  have hsegments : Source.segments "left=20\n---\ny=x | x<1\n\ny=2|RED|label" =
      .ok (some "left=20\n", "\ny=x | x<1\n\ny=2|RED|label") := by decide
  have hlines : Text.lines "\ny=x | x<1\n\ny=2|RED|label" =
      ["y=x | x<1".toList, "y=2|RED|label".toList] := by decide
  obtain ⟨h, hall⟩ := exists_ok hall
  obtain ⟨g, hg, hall⟩ := bind_eq_ok_iff.mp hall
  obtain ⟨settings, equations, heq, hwell⟩ := wellFormed_of_withAll _ _ g hg
    [⟨[.defaultColor (some (.code "#00f"))], by decide⟩,
      ⟨[.edge .left (.int 30), .size .width (.int 700)], by decide⟩]
    (by simp [Setting.Placed, Color.Readable, Color.isCode])
    h hall
  rw [hsegments] at heq
  cases heq
  rw [hlines] at hwell
  exact ⟨g, h, hg, hall, hwell⟩

end Graph

end GraphBlock
