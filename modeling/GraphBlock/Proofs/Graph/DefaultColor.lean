import GraphBlock.Graph.Calculator
import GraphBlock.Proofs.Equation.Painted
import GraphBlock.Proofs.Graph.Agreement
import GraphBlock.Proofs.Setting.Lookup
import GraphBlock.Proofs.Source.Rewrite

/-!
A default color means the color tag on every line without a color. The block with the directive and
the block with the tags are both read, and show the same.
-/

namespace GraphBlock

namespace Source

def withDefaultColor (c source : Text) : Text :=
  let (settings, equations) := split source
  Key.defaultColor.name ++ '=' :: c ++ '\n' :: settings ++ delimiter ++ equations

/-- A block with a color tag on every line that is read as an equation without a color. -/
def withColorTags (c source : Text) : Text :=
  match breakDelimiter? source with
  | none => EquationLine.withColors c source
  | some (settings, equations) => settings ++ delimiter ++ EquationLine.withColors c equations

theorem withDefaultColor_eq (c source : Text) :
    withDefaultColor c source = Key.defaultColor.name ++ '=' :: c ++ '\n' :: (split source).1 ++
      delimiter ++ (split source).2 := rfl

theorem Clear.cons_break {a t : Text} (ha : '-' ∉ a) (ht : Clear t) : Clear (a ++ '\n' :: t) := by
  rw [Clear, List.append_assoc, List.cons_append, delimiter_infix_cons_iff (by decide), not_or]
  exact ⟨fun h => ha (h.subset (by decide)), ht⟩

end Source

namespace Overrides

variable {o : Overrides} {c segment : Text} {color : Color} {k : Key}

def colored (o : Overrides) (color : Color) (h : .defaultColor ∉ o.keys) : Overrides :=
  ⟨.defaultColor (some color) :: o.entries, List.nodup_cons.mpr ⟨h, o.distinct⟩⟩

theorem get?_colored {h : .defaultColor ∉ o.keys} (hk : k ≠ .defaultColor) :
    (o.colored color h).get? k = o.get? k :=
  List.find?_cons_of_neg fun heq => hk (of_decide_eq_true heq).symm

theorem directives_defaultColor (hc : Color.parse? c = some color) :
    directives (Key.defaultColor.name ++ '=' :: c ++ '\n' :: segment) =
      ⟨Key.defaultColor.name, some c⟩ :: directives segment := by
  have hsegment := Color.isSegment_of_parse? hc
  have hfront : ∀ x ∈ Key.defaultColor.name ++ '=' :: c, isDelimiter x = false := by
    intro x hx
    rcases List.mem_append.mp hx with hx | hx
    · exact Key.defaultColor.name_not_delimiter x hx
    · rcases List.mem_cons.mp hx with rfl | hx
      · decide
      · exact Color.not_isDelimiter_of_parse? hc x hx
  have hne : Text.trim (Key.defaultColor.name ++ '=' :: c) ≠ [] := by
    intro hnil
    exact absurd (Text.trimBy_eq_nil_iff.mp hnil '=' (by simp)) (by decide)
  have htrim : Text.trim Key.defaultColor.name = Key.defaultColor.name := by decide
  rw [directives, Text.parts_append_cons _ hfront rfl, Text.parts_piece hfront, if_neg hne,
    List.singleton_append, List.map_cons, Directive.ofText_trim,
    Directive.ofText_assigned c (by decide), htrim, hsegment.trimmed, directives]

theorem parse_defaultColor (hc : Color.parse? c = some color) (ho : parse (some segment) = .ok o)
    (h : .defaultColor ∉ o.keys) :
    parse (some (Key.defaultColor.name ++ '=' :: c ++ '\n' :: segment)) =
      .ok (o.colored color h) := by
  have hread : Kind.readColor Key.defaultColor.name (some c) = .ok color := by
    cases c with
    | nil => exact absurd rfl (Color.isSegment_of_parse? hc).ne_nil
    | cons x c => simp only [Kind.readColor, Kind.required, bind, Except.bind, hc]
  rw [parse_eq_ok_iff] at ho ⊢
  rw [directives_defaultColor hc]
  refine .cons ⟨Key.named?_eq_some_iff.mpr rfl, ?_⟩ ho
  rw [Setting.key, Setting.read, hread]
  rfl

theorem ofOverrides_colored (color : Color) (h : .defaultColor ∉ o.keys) :
    Settings.ofOverrides (o.colored color h).adjusted =
      (Settings.ofOverrides o.adjusted).set (.defaultColor (some color)) := by
  apply Settings.ext_get
  intro k
  rw [Settings.get_set, Settings.ofOverrides, Settings.ofOverrides, Settings.get_merged,
    Settings.get_merged]
  by_cases hk : k = .defaultColor
  · subst hk
    rw [get?_adjusted_of_ne_edge (by simp)]
    rfl
  · have hkey : (Setting.defaultColor (some color)).key ≠ k := fun heq => hk heq.symm
    rw [if_neg hkey, get?_adjusted_congr (fun e => get?_colored (by simp)) (get?_colored hk)]

theorem defaultColor_ofOverrides (h : .defaultColor ∉ o.keys) :
    (Settings.ofOverrides o.adjusted).defaultColor = none := by
  have hnone : o.get? .defaultColor = none := by
    rw [get?, List.find?_eq_none]
    intro s hs heq
    exact h (of_decide_eq_true heq ▸ List.mem_map_of_mem hs)
  have hget : (Settings.ofOverrides o.adjusted).get .defaultColor = .defaultColor none := by
    rw [Settings.ofOverrides, Settings.get_merged, get?_adjusted_of_ne_edge (by simp), hnone]
    rfl
  exact Setting.defaultColor.inj hget

end Overrides

namespace Graph

open Calculator

variable {advise : Text → Option Hint} {source c : Text} {color : Color}
  {equations : List Equation} {hint : Option Hint} {o : Overrides}

theorem Reads.withDefaultColor (h : Reads advise source equations hint o)
    (hc : Color.parse? c = some color) (hfree : .defaultColor ∉ o.keys) :
    Reads advise (Source.withDefaultColor c source) equations hint (o.colored color hfree) := by
  have hdash : '-' ∉ Key.defaultColor.name ++ '=' :: c := by
    have htoken : '-' ∉ c := Color.not_mem_of_parse? hc rfl (by decide)
    rw [List.mem_append, List.mem_cons, not_or, not_or]
    exact ⟨Key.defaultColor.dash_not_mem_name, by decide, htoken⟩
  have hsplit : Source.split (Source.withDefaultColor c source) =
      (Key.defaultColor.name ++ '=' :: c ++ '\n' :: (Source.split source).1,
        (Source.split source).2) := by
    rw [Source.withDefaultColor_eq]
    exact Source.split_append _ (.cons_break hdash (Source.clear_split source))
  refine ⟨?_, ?_, ?_⟩
  · rw [hsplit]
    exact h.single
  · rw [hsplit]
    exact h.lines
  · rw [hsplit]
    exact Overrides.parse_defaultColor hc h.settings hfree

theorem Reads.withColorTags (h : Reads advise source equations hint o)
    (hc : Color.parse? c = some color) :
    Reads advise (Source.withColorTags c source) (equations.map (Equation.painted (some color)))
      hint o := by
  obtain ⟨hsingle, hlines, hsettings⟩ := h
  have hsegment := Color.isSegment_of_parse? hc
  -- tags hold no delimiter of segments, so the block is split where it was
  cases hbreak : Source.breakDelimiter? source with
  | none =>
    have hsplit : Source.split source = ([], '\n' :: source) := by rw [Source.split, hbreak]; rfl
    rw [hsplit] at hlines hsettings
    rw [lines_cons_break] at hlines
    have htagged : Source.breakDelimiter? (EquationLine.withColors c source) = none := by
      rw [Source.breakDelimiter?_eq_none_iff] at hbreak ⊢
      exact EquationLine.not_infix_withColors hsegment hbreak
    have hsplitTagged : Source.split (EquationLine.withColors c source) =
        ([], '\n' :: EquationLine.withColors c source) := by rw [Source.split, htagged]; rfl
    rw [Source.withColorTags, hbreak]
    refine ⟨?_, ?_, ?_⟩
    · rw [hsplitTagged]
      exact breakDelimiter?_cons_break htagged
    · rw [hsplitTagged, lines_cons_break]
      exact EquationLine.readLines_withColors hc hlines
    · rw [hsplitTagged]
      exact hsettings
  | some cut =>
    obtain ⟨a, b⟩ := cut
    have hsplit : Source.split source = (a, b) := by rw [Source.split, hbreak]; rfl
    rw [hsplit] at hsingle hlines hsettings
    have hsplitTagged := Source.split_append (EquationLine.withColors c b)
      (Source.breakDelimiter?_eq_some_iff.mp hbreak).2
    rw [Source.withColorTags, hbreak]
    refine ⟨?_, ?_, ?_⟩
    · rw [hsplitTagged]
      rw [Source.breakDelimiter?_eq_none_iff] at hsingle ⊢
      exact EquationLine.not_infix_withColors hsegment hsingle
    · rw [hsplitTagged]
      exact EquationLine.readLines_withColors hc hlines
    · rw [hsplitTagged]
      exact hsettings

/-- What a default color paints is what the tags paint, and nothing else of a graph depends on
either. -/
theorem parse_withDefaultColor (advise : Text → Option Hint) (source : Text) (g : Graph)
    (hparse : parse advise source = .ok g)
    (hfree : .defaultColor ∉ g.written.keys) (c : Text) (color : Color)
    (hc : Color.parse? c = some color) :
    ∃ k h, parse advise (Source.withDefaultColor c source) = .ok k ∧
      parse advise (Source.withColorTags c source) = .ok h ∧
      k.equations = h.equations ∧ k.hint = h.hint ∧ State.ofGraph k = State.ofGraph h ∧
      h.settings.defaultColor = none ∧
      k.settings = { h.settings with defaultColor := some color } := by
  have hreads := reads_of_parse hparse
  have hsettings := Overrides.ofOverrides_colored color hfree
  obtain ⟨k, hk⟩ := exists_build g.source g.hint (o := g.written.colored color hfree)
    (by rw [hsettings]; exact g.valid)
  obtain ⟨h, hh⟩ := exists_build (g.source.map (Equation.painted (some color))) g.hint g.valid
  obtain ⟨ksource, kwritten, khint⟩ := build_eq_ok_iff.mp hk
  obtain ⟨hsource, hwritten, hhint⟩ := build_eq_ok_iff.mp hh
  have hnone : h.settings.defaultColor = none := by
    rw [settings, hwritten]
    exact Overrides.defaultColor_ofOverrides hfree
  have hcolored : k.settings = { h.settings with defaultColor := some color } := by
    rw [settings, settings, kwritten, hwritten, hsettings]
    rfl
  have hequations : k.equations = h.equations := by
    rw [Graph.equations, Graph.equations, hcolored, hnone, ksource, hsource, List.map_map]
    apply List.map_congr_left
    intro e _
    simp [Equation.painted]
  refine ⟨k, h, ?_, ?_, hequations, khint.trans hhint.symm, ?_, hnone, hcolored⟩
  · rw [(hreads.withDefaultColor hc hfree).parse_eq, hk]
  · rw [(hreads.withColorTags hc).parse_eq, hh]
  · rw [State.ofGraph, State.ofGraph, hequations, hcolored]
    rfl

theorem parse_withDefaultColor_folded :
    ∃ k h,
      parse Hint.bare "defaultColor=whıte\nleft=20\n---\ny=x|red\n \n y=2|x<1| \ny=3|label:a:b" =
        .ok k ∧
      parse Hint.bare "left=20\n---\ny=x|red\n \n y=2|x<1| |whıte\ny=3|label:a:b|whıte" = .ok h ∧
      k.equations = h.equations ∧ State.ofGraph k = State.ofGraph h ∧
      k.settings = { h.settings with defaultColor := some (.named .white) } := by
  have hkeys : (parse Hint.bare "left=20\n---\ny=x|red\n \n y=2|x<1| \ny=3|label:a:b").map
      (fun g => g.written.keys) = .ok [.edge .left] := by decide +kernel
  obtain ⟨g, hparse, hg⟩ := map_eq_ok_iff.mp hkeys
  obtain ⟨k, h, hk, hh, hequations, -, hstate, -, hsettings⟩ := parse_withDefaultColor _ _ g hparse
    (by rw [hg]; decide) "whıte" (.named .white) (by decide)
  have hdirective : Source.withDefaultColor "whıte"
      "left=20\n---\ny=x|red\n \n y=2|x<1| \ny=3|label:a:b" =
        "defaultColor=whıte\nleft=20\n---\ny=x|red\n \n y=2|x<1| \ny=3|label:a:b" := by decide
  have htags : Source.withColorTags "whıte"
      "left=20\n---\ny=x|red\n \n y=2|x<1| \ny=3|label:a:b" =
        "left=20\n---\ny=x|red\n \n y=2|x<1| |whıte\ny=3|label:a:b|whıte" := by decide +kernel
  rw [hdirective] at hk
  rw [htags] at hh
  exact ⟨k, h, hk, hh, hequations, hstate, hsettings⟩

end Graph

end GraphBlock
