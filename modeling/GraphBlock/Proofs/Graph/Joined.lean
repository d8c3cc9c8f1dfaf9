import GraphBlock.Proofs.Graph.Agreement
import GraphBlock.Proofs.Source.Segments
import GraphBlock.Proofs.Text.Layout

namespace GraphBlock

namespace Source

def block (settings equations : Text) : Text :=
  settings ++ '\n' :: delimiter ++ '\n' :: equations

theorem segments_append {a : Text} (b : Text) (ha : Clear a) :
    segments (a ++ delimiter ++ b) =
      if delimiter <:+: b then .error .tooManySegments else .ok (some a, b) := by
  simp only [segments, breakDelimiter?_append b ha, Option.isSome_iff_ne_none, ne_eq,
    breakDelimiter?_eq_none_iff, not_not]

theorem segments_block_eq_ok_iff {settings equations : Text} {s : Option Text × Text} :
    segments (block settings equations) = .ok s ↔
      ¬ delimiter <:+: settings ∧ ¬ delimiter <:+: equations ∧
        s = (some (settings ++ ['\n']), '\n' :: equations) := by
  have hblock : block settings equations =
      settings ++ ['\n'] ++ delimiter ++ '\n' :: equations := by simp [block]
  have hbreak : delimiter <:+: '\n' :: equations ↔ delimiter <:+: equations := by
    rw [← List.nil_append ('\n' :: equations), delimiter_infix_cons_iff (by decide)]
    simp [delimiter_eq]
  by_cases hsettings : delimiter <:+: settings
  · obtain ⟨a, b, hab⟩ := hsettings
    have herror : segments (block settings equations) = .error .tooManySegments :=
      segments_eq_error_iff.mpr ⟨rfl, a, b ++ ['\n'], '\n' :: equations, by
        rw [hblock, ← hab]
        simp only [List.append_assoc]⟩
    rw [herror]
    simp [← hab]
  · have hclear : Clear (settings ++ ['\n']) := by
      rw [Clear, List.append_assoc, List.singleton_append, delimiter_infix_cons_iff (by decide),
        not_or]
      exact ⟨hsettings, by decide⟩
    rw [hblock, segments_append _ hclear]
    simp only [hbreak]
    split
    · next hequations => simp [hequations]
    · next hequations => simp [hsettings, hequations, eq_comm]

end Source

namespace Graph

open Source

variable {advise : Text → Option Hint} {ls ms : List Text} {es : List Equation}
  {hint : Option Hint} {h e f : Text} {g : Graph}

theorem readLines_append_eq_ok_iff :
    readLines advise (ls ++ ms) = .ok (es, hint) ↔
      ∃ as a bs b, readLines advise ls = .ok (as, a) ∧ readLines advise ms = .ok (bs, b) ∧
        es = as ++ bs ∧ hint = b.or a := by
  simp only [readLines, bind_eq_ok_iff, mapM_append_eq_ok_iff]
  constructor
  · rintro ⟨read, ⟨as, bs, has, hbs, rfl⟩, heq⟩
    cases heq
    refine ⟨_, _, _, _, ⟨as, has, rfl⟩, ⟨bs, hbs, rfl⟩, List.map_append, ?_⟩
    rw [List.filterMap_append, List.getLast?_append]
  · rintro ⟨_, _, _, _, ⟨as, has, heqa⟩, ⟨bs, hbs, heqb⟩, rfl, rfl⟩
    cases heqa
    cases heqb
    refine ⟨as ++ bs, ⟨as, bs, has, hbs, rfl⟩, ?_⟩
    rw [List.map_append, List.filterMap_append, List.getLast?_append]
    rfl

theorem parse_block_eq_ok_iff :
    parse advise (block h e) = .ok g ↔ ¬ delimiter <:+: h ∧ ¬ delimiter <:+: e ∧
      readLines advise (Text.lines e) = .ok (g.source, g.hint) ∧
      Overrides.parse (some (h ++ ['\n'])) = .ok g.written := by
  simp only [parse, bind_eq_ok_iff, build_eq_ok_iff]
  constructor
  · rintro ⟨s, hs, ⟨es, hint⟩, hlines, o, ho, rfl, rfl, rfl⟩
    obtain ⟨hh, he, rfl⟩ := segments_block_eq_ok_iff.mp hs
    rw [lines_cons_break] at hlines
    exact ⟨hh, he, hlines, ho⟩
  · rintro ⟨hh, he, hlines, ho⟩
    refine ⟨_, segments_block_eq_ok_iff.mpr ⟨hh, he, rfl⟩, (g.source, g.hint), ?_, g.written, ho,
      rfl, rfl, rfl⟩
    rw [lines_cons_break]
    exact hlines

/-- The graph of two texts of equations, from the graphs of each. -/
theorem parse_block_append_eq_ok_iff :
    parse advise (block h (e ++ '\n' :: f)) = .ok g ↔
      ∃ k l, parse advise (block h e) = .ok k ∧ parse advise (block h f) = .ok l ∧
        g.source = k.source ++ l.source ∧ g.written = k.written ∧ g.hint = l.hint.or k.hint := by
  have hinfix : delimiter <:+: e ++ '\n' :: f ↔ delimiter <:+: e ∨ delimiter <:+: f :=
    delimiter_infix_cons_iff (by decide)
  have hlines : Text.lines (e ++ '\n' :: f) = Text.lines e ++ Text.lines f :=
    Text.parts_append e f rfl
  simp only [parse_block_eq_ok_iff, hinfix, not_or, hlines, readLines_append_eq_ok_iff]
  constructor
  · rintro ⟨hh, ⟨he, hf⟩, ⟨as, a, bs, b, has, hbs, hsource, hhint⟩, ho⟩
    exact ⟨⟨as, g.written, a, g.valid⟩, ⟨bs, g.written, b, g.valid⟩, ⟨hh, he, has, ho⟩,
      ⟨hh, hf, hbs, ho⟩, hsource, rfl, hhint⟩
  · rintro ⟨k, l, ⟨hh, he, has, ho⟩, ⟨-, hf, hbs, -⟩, hsource, hwritten, hhint⟩
    rw [← hwritten] at ho
    exact ⟨hh, ⟨he, hf⟩, ⟨_, _, _, _, has, hbs, hsource, hhint⟩, ho⟩

theorem written_eq_of_parse_block {k : Graph} (hg : parse advise (block h e) = .ok g)
    (hk : parse advise (block h f) = .ok k) : g.written = k.written := by
  obtain ⟨-, -, -, ho⟩ := parse_block_eq_ok_iff.mp hg
  obtain ⟨-, -, -, hp⟩ := parse_block_eq_ok_iff.mp hk
  exact Except.ok.inj (ho.symm.trans hp)

/-- Reading goes text by text over the equations. Whatever the texts, two of them under the same
settings are accepted exactly when each of them is, and then show the equations of both in order,
with the settings of each, and with the hint of the last one that has a hint. -/
theorem parse_block_append (advise : Text → Option Hint) (h e f : Text) :
    ((∃ g, parse advise (block h (e ++ '\n' :: f)) = .ok g) ↔
      (∃ k, parse advise (block h e) = .ok k) ∧ ∃ l, parse advise (block h f) = .ok l) ∧
    ∀ g k l, parse advise (block h (e ++ '\n' :: f)) = .ok g → parse advise (block h e) = .ok k →
      parse advise (block h f) = .ok l →
      g.equations = k.equations ++ l.equations ∧ g.settings = k.settings ∧
        g.settings = l.settings ∧ g.hint = l.hint.or k.hint := by
  constructor
  · constructor
    · rintro ⟨g, hg⟩
      obtain ⟨k, l, hk, hl, -⟩ := parse_block_append_eq_ok_iff.mp hg
      exact ⟨⟨k, hk⟩, l, hl⟩
    · rintro ⟨⟨k, hk⟩, l, hl⟩
      exact ⟨⟨k.source ++ l.source, k.written, l.hint.or k.hint, k.valid⟩,
        parse_block_append_eq_ok_iff.mpr ⟨k, l, hk, hl, rfl, rfl, rfl⟩⟩
  · intro g k l hg hk hl
    obtain ⟨k', l', hk', hl', hsource, hwritten, hhint⟩ := parse_block_append_eq_ok_iff.mp hg
    cases hk.symm.trans hk'
    cases hl.symm.trans hl'
    have hsame := written_eq_of_parse_block hk hl
    have hgk : g.settings = k.settings := by rw [settings, hwritten, settings]
    have hkl : k.settings = l.settings := by rw [settings, hsame, settings]
    refine ⟨?_, hgk, hgk.trans hkl, hhint⟩
    rw [equations, hsource, List.map_append, hgk, equations, hkl, equations]

theorem parse_block_append_line_end :
    ∃ convert : Text → Except Unit Text, convert "x<\\alpha" = .ok "x < alpha" ∧ ∃ g k l,
      parse (Hint.ofRestriction? convert)
        "left=20\ndefaultColor=#00f\n---\n| y=x|x<\\alpha\r\n\x0b y=2|red||label" = .ok g ∧
      parse (Hint.ofRestriction? convert)
        "left=20\ndefaultColor=#00f\n---\n| y=x|x<\\alpha\r" = .ok k ∧
      parse (Hint.ofRestriction? convert)
        "left=20\ndefaultColor=#00f\n---\n\x0b y=2|red||label" = .ok l ∧
      g.equations = k.equations ++ l.equations ∧
      [k.equations.length, l.equations.length] = [1, 1] ∧
      g.hint = some ⟨"x<\\alpha", some "x < alpha"⟩ := by
  let convert : Text → Except Unit Text := fun _ => .ok "x < alpha"
  have hwhole : block "left=20\ndefaultColor=#00f"
      ("| y=x|x<\\alpha\r" ++ '\n' :: "\x0b y=2|red||label") =
        "left=20\ndefaultColor=#00f\n---\n| y=x|x<\\alpha\r\n\x0b y=2|red||label" := by decide
  have hupper : block "left=20\ndefaultColor=#00f" "| y=x|x<\\alpha\r" =
      "left=20\ndefaultColor=#00f\n---\n| y=x|x<\\alpha\r" := by decide
  have hlower : block "left=20\ndefaultColor=#00f" "\x0b y=2|red||label" =
      "left=20\ndefaultColor=#00f\n---\n\x0b y=2|red||label" := by decide
  obtain ⟨hiff, hsame⟩ := parse_block_append (Hint.ofRestriction? convert)
    "left=20\ndefaultColor=#00f" "| y=x|x<\\alpha\r" "\x0b y=2|red||label"
  rw [hwhole, hupper, hlower] at hiff
  rw [hwhole, hupper, hlower] at hsame
  have hfirst : (parse (Hint.ofRestriction? convert)
      "left=20\ndefaultColor=#00f\n---\n| y=x|x<\\alpha\r").map
        (fun k => (k.equations.length, k.hint)) =
          .ok (1, some ⟨"x<\\alpha", some "x < alpha"⟩) := by decide +kernel
  have hsecond : (parse (Hint.ofRestriction? convert)
      "left=20\ndefaultColor=#00f\n---\n\x0b y=2|red||label").map
        (fun l => (l.equations.length, l.hint)) = .ok (1, none) := by decide +kernel
  obtain ⟨k, hk, hkshown⟩ := map_eq_ok_iff.mp hfirst
  obtain ⟨l, hl, hlshown⟩ := map_eq_ok_iff.mp hsecond
  rw [Prod.mk.injEq] at hkshown hlshown
  obtain ⟨g, hg⟩ := hiff.mpr ⟨⟨k, hk⟩, l, hl⟩
  obtain ⟨hequations, -, -, hhint⟩ := hsame g k l hg hk hl
  refine ⟨convert, rfl, g, k, l, hg, hk, hl, hequations, by rw [hkshown.1, hlshown.1], ?_⟩
  rw [hhint, hlshown.2, Option.none_or, hkshown.2]

end Graph

end GraphBlock
