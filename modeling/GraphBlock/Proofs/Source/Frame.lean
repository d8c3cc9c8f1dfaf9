import GraphBlock.Proofs.Source.Piece
import GraphBlock.Source
import Mathlib.Data.List.Perm.Basic

/-!
What an update leaves as it is. Each piece of the settings segment is kept, or keeps its key and is
written for one setting; settings without a piece get lines at the end of the segment, and nothing
behind the delimiter is touched.
-/

namespace GraphBlock

namespace Pieces

def addLines (lines : List Text) (ps : Pieces) : Pieces :=
  lines.foldl (fun ps line => ps.addLine line true) ps

theorem text_addLines {ps : Pieces} {lines : List Text} (hps : ps.Proper Overrides.isDelimiter)
    (hlines : ∀ line ∈ lines, ∀ c ∈ line, Overrides.isDelimiter c = false) :
    (ps.addLines lines).text =
      ps.text ++ (if lines = [] ∨ endsLine true ps.text = true then [] else ['\n']) ++
        lines.flatMap fun line => line ++ ['\n'] := by
  induction lines generalizing ps with
  | nil => simp [addLines]
  | cons line lines ih =>
    obtain ⟨hline, hlines⟩ := List.forall_mem_cons.mp hlines
    have hends : endsLine true (ps.addLine line true).text = true := by
      rw [text_addLine true hps, endsLine, List.getLast?_append_of_ne_nil _ (by simp)]
      rfl
    rw [addLines, List.foldl_cons, ← addLines, ih (proper_addLine true hps hline) hlines,
      if_pos (.inr hends), text_addLine true hps]
    simp

end Pieces

namespace Source

open Overrides Pieces

/-- How often the delimiter stands in a text, counted from the left without overlap. -/
def delimiterCount : Text → Nat
  | '-' :: '-' :: '-' :: t => delimiterCount t + 1
  | _ :: t => delimiterCount t
  | [] => 0

theorem delimiterCount_eq (t : Text) :
    delimiterCount t = (breakDelimiter? t).elim 0 fun cut => delimiterCount cut.2 + 1 := by
  fun_induction delimiterCount t with
  | case1 t => rfl
  | case2 c t hno ih =>
    rw [breakDelimiter?.eq_2 c t hno, ih]
    cases breakDelimiter? t <;> rfl
  | case3 => rfl

variable {k : Key} {s : Setting} {l m u written : List Setting} {p q v : Text} {ps qs rs : Pieces}

/-- A piece that the rewriter takes for a directive of a key: gaps alone stand around the key, and
an equals sign follows, or nothing. -/
def Names (k : Key) (p : Text) : Prop :=
  ∃ a b c, (∀ x ∈ a, isGap x = true) ∧ (∀ x ∈ b, isGap x = true) ∧ p = a ++ k.name ++ b ++ c ∧
    ∀ x ∈ c.head?, x = '='

/-- A piece before and after the value of a setting is written in it. The key stays; the value
stands in the place of another one, or behind an equals sign in the place of none. -/
structure Writes (s : Setting) (p q : Text) : Prop where
  key_before : (Directive.ofText p).key = s.key.name
  key_after : (Directive.ofText q).key = s.key.name
  exists_place : ∃ front old rest, p = front ++ old ++ rest ∧
    (q = front ++ s.toValue.directive ++ rest ∨
      old = [] ∧ q = front ++ '=' :: s.toValue.directive ++ rest)

/-- A piece before and after updates, and the settings that were written in it, at most one. -/
inductive Kept : List Setting → Text → Text → Prop
  | same (p : Text) : Kept [] p p
  | written {s : Setting} {p q : Text} (h : Writes s p q) : Kept [s] p q

/-- Pieces before and after updates, with the same delimiters between them, and the settings that
were written in them. -/
inductive Rewritten : List Setting → Pieces → Pieces → Prop
  | last {l : List Setting} {p q : Text} (h : Kept l p q) : Rewritten l (last p) (last q)
  | closed {l m : List Setting} {p q : Text} {ps qs : Pieces} (h : Kept l p q) (d : Char)
      (rest : Rewritten m ps qs) : Rewritten (l ++ m) (closed p d ps) (closed q d qs)

theorem names_iff (v : Text) :
    Names k p ↔ assign? k.name v p ≠ none ∨ assignBare? k.name v p ≠ none := by
  constructor
  · rintro ⟨a, b, c, ha, hb, rfl, hc⟩
    cases c with
    | nil =>
      right
      rw [assignBare?_eq_some_iff.mpr ⟨a, b, ha, hb, by simp, rfl⟩]
      exact Option.some_ne_none _
    | cons d t =>
      obtain rfl : d = '=' := hc d rfl
      left
      have hkey : afterKey? k.name (a ++ k.name ++ b ++ '=' :: t) =
          some (a ++ k.name, b ++ '=' :: t) := afterKey?_eq_some_iff.mpr ⟨a, ha, rfl, by simp⟩
      have hequals : ∀ x ∈ ('=' :: t).head?, isGap x = false := by
        rintro x ⟨⟩
        decide
      simp only [assign?, hkey, Text.dropWhile_run hb hequals]
      exact Option.some_ne_none _
  · rintro (h | h)
    · obtain ⟨new, hnew⟩ := Option.ne_none_iff_exists'.mp h
      obtain ⟨front, old, rest, hold, -⟩ := assign?_eq_some_iff.mp hnew
      obtain ⟨a, b, c, ha, hb, -, hfront⟩ := hold.front_eq
      refine ⟨a, b, '=' :: (c ++ old ++ rest), ha, hb, ?_, by rintro x ⟨⟩; rfl⟩
      rw [hold.piece_eq, hfront]
      simp
    · obtain ⟨new, hnew⟩ := Option.ne_none_iff_exists'.mp h
      obtain ⟨a, b, ha, hb, hp, -⟩ := assignBare?_eq_some_iff.mp hnew
      exact ⟨a, b, [], ha, hb, by rw [hp, List.append_nil], by simp⟩

theorem Names.key_ofText (h : Names k p) : (Directive.ofText p).key = k.name := by
  rcases (names_iff []).mp h with h | h
  · obtain ⟨q, hq⟩ := Option.ne_none_iff_exists'.mp h
    exact (IsAssignment.assign.key_ofText hq).1
  · obtain ⟨q, hq⟩ := Option.ne_none_iff_exists'.mp h
    exact (IsAssignment.bare.key_ofText hq).1

theorem assignKey?_ne_none_iff : ps.assignKey? k.name v ≠ none ↔ ∃ p ∈ ps.toList, Names k p := by
  rw [ne_eq, assignKey?_eq_none_iff, updateFirst?_eq_none_iff, updateFirst?_eq_none_iff]
  simp only [names_iff v]
  constructor
  · intro h
    by_contra! hnone
    exact h ⟨fun p hp => (hnone p hp).1, fun p hp => (hnone p hp).2⟩
  · rintro ⟨p, hp, hassign | hbare⟩ ⟨hnone, hnone'⟩
    · exact hassign (hnone p hp)
    · exact hbare (hnone' p hp)

theorem Rewritten.refl (ps : Pieces) : Rewritten [] ps ps := by
  induction ps with
  | last p => exact .last (.same p)
  | closed p d rest ih => exact .closed (.same p) d ih

theorem Kept.names_iff (h : Kept l p q) (hk : k ∉ l.map Setting.key) : Names k q ↔ Names k p := by
  cases h with
  | same => rfl
  | @written s _ _ h =>
    have hne : k ≠ s.key := by simpa using hk
    constructor
    · intro hq
      exact absurd (Key.name_injective (hq.key_ofText.symm.trans h.key_after)) hne
    · intro hp
      exact absurd (Key.name_injective (hp.key_ofText.symm.trans h.key_before)) hne

theorem Rewritten.exists_names_iff (h : Rewritten l ps qs) (hk : k ∉ l.map Setting.key) :
    (∃ q ∈ qs.toList, Names k q) ↔ ∃ p ∈ ps.toList, Names k p := by
  induction h with
  | last h => simpa [toList] using h.names_iff hk
  | closed h d _ ih =>
    rw [List.map_append, List.mem_append, not_or] at hk
    simp only [toList, List.exists_mem_cons_iff, h.names_iff hk.1, ih hk.2]

theorem IsAssignment.writes {f : Text → Option Text}
    (hf : IsAssignment s.key s.toValue.directive f) (hpq : f p = some q) : Writes s p q := by
  obtain ⟨hbefore, hafter⟩ := hf.key_ofText hpq
  refine ⟨hbefore, hafter, ?_⟩
  cases hf with
  | assign =>
    obtain ⟨front, old, rest, hold, rfl⟩ := assign?_eq_some_iff.mp hpq
    exact ⟨front, old, rest, hold.piece_eq, .inl rfl⟩
  | bare =>
    obtain ⟨a, b, -, -, rfl, rfl⟩ := assignBare?_eq_some_iff.mp hpq
    exact ⟨a ++ s.key.name, [], b, by rw [List.append_nil], .inr ⟨rfl, rfl⟩⟩

theorem Kept.assign {f : Text → Option Text} (h : Kept l p q) (hs : s.key ∉ l.map Setting.key)
    (hf : IsAssignment s.key s.toValue.directive f) {r : Text} (hr : f q = some r) :
    l = [] ∧ Kept [s] p r := by
  have hwrites := hf.writes hr
  cases h with
  | same => exact ⟨rfl, .written hwrites⟩
  | @written t _ _ h =>
    have hne : s.key ≠ t.key := by simpa using hs
    exact absurd (Key.name_injective (hwrites.key_before.symm.trans h.key_after)) hne

theorem Rewritten.updateFirst? {f : Text → Option Text} (h : Rewritten l ps qs)
    (hs : s.key ∉ l.map Setting.key) (hf : IsAssignment s.key s.toValue.directive f)
    (hrs : qs.updateFirst? f = some rs) : ∃ m, m.Perm (s :: l) ∧ Rewritten m ps rs := by
  induction h generalizing rs with
  | last h =>
    obtain ⟨r, hr, rfl⟩ := Option.map_eq_some_iff.mp hrs
    obtain ⟨rfl, hkept⟩ := h.assign hs hf hr
    exact ⟨[s], .refl _, .last hkept⟩
  | @closed l m p q ps qs h d rest ih =>
    rw [List.map_append, List.mem_append, not_or] at hs
    rw [Pieces.updateFirst?] at hrs
    split at hrs
    · next r hr =>
      cases hrs
      obtain ⟨rfl, hkept⟩ := h.assign hs.1 hf hr
      exact ⟨s :: m, .refl _, .closed hkept d rest⟩
    · obtain ⟨ts, hts, rfl⟩ := Option.map_eq_some_iff.mp hrs
      obtain ⟨more, hmore, hrest⟩ := ih hs.2 hts
      exact ⟨l ++ more, (hmore.append_left l).trans List.perm_middle, .closed h d hrest⟩

theorem Rewritten.assignKey? (h : Rewritten l ps qs) (hs : s.key ∉ l.map Setting.key)
    (hrs : qs.assignKey? s.key.name s.toValue.directive = some rs) :
    ∃ m, m.Perm (s :: l) ∧ Rewritten m ps rs := by
  rcases assignKey?_eq_some_iff.mp hrs with hrs | ⟨-, hrs⟩
  · exact h.updateFirst? hs .assign hrs
  · exact h.updateFirst? hs .bare hrs

/-- Which of the updates are written in the pieces: those whose key some piece names, once each. -/
structure Rewrites (u : List Setting) (ps : Pieces) (written : List Setting) (qs : Pieces) :
    Prop where
  rewritten : Rewritten written ps qs
  distinct : (written.map Setting.key).Nodup
  mem_iff : ∀ s, s ∈ written ↔ s ∈ u ∧ ∃ p ∈ ps.toList, Names s.key p

theorem Rewrites.not_mem_keys (h : Rewrites u ps written qs) (hs : s.key ∉ u.map Setting.key) :
    s.key ∉ written.map Setting.key := by
  intro hmem
  obtain ⟨t, ht, hkey⟩ := List.mem_map.mp hmem
  exact hs (List.mem_map.mpr ⟨t, ((h.mem_iff t).mp ht).1, hkey⟩)

theorem Rewrites.assignKey? (h : Rewrites u ps written qs) (hs : s.key ∉ u.map Setting.key)
    (hrs : qs.assignKey? s.key.name s.toValue.directive = some rs) :
    ∃ more, more.Perm (s :: written) ∧ Rewrites (u ++ [s]) ps more rs := by
  have hfresh := h.not_mem_keys hs
  obtain ⟨more, hperm, hrewritten⟩ := h.rewritten.assignKey? hfresh hrs
  have hnamed : ∃ p ∈ ps.toList, Names s.key p := by
    rw [← h.rewritten.exists_names_iff hfresh,
      ← assignKey?_ne_none_iff (v := s.toValue.directive), hrs]
    exact Option.some_ne_none _
  refine ⟨more, hperm, hrewritten, ?_, ?_⟩
  · rw [(hperm.map Setting.key).nodup_iff, List.map_cons, List.nodup_cons]
    exact ⟨hfresh, h.distinct⟩
  · intro t
    rw [hperm.mem_iff, List.mem_cons, h.mem_iff, List.mem_append, List.mem_singleton, or_and_right,
      or_comm]
    apply or_congr_right
    exact ⟨fun ht => ⟨ht, ht ▸ hnamed⟩, fun ht => ht.1⟩

theorem Rewrites.assignKey?_of_none (h : Rewrites u ps written qs)
    (hs : s.key ∉ u.map Setting.key) (hrs : qs.assignKey? s.key.name v = none) :
    Rewrites (u ++ [s]) ps written qs := by
  have hnamed : ¬ ∃ p ∈ ps.toList, Names s.key p := by
    rw [← h.rewritten.exists_names_iff (h.not_mem_keys hs), ← assignKey?_ne_none_iff (v := v)]
    exact not_not_intro hrs
  refine ⟨h.rewritten, h.distinct, fun t => ?_⟩
  rw [h.mem_iff, List.mem_append, List.mem_singleton, or_and_right]
  refine ⟨.inl, fun ht => ht.resolve_right ?_⟩
  rintro ⟨heq, ht⟩
  exact hnamed (heq ▸ ht)

theorem assignKey?_addLines (hs : s.key ∉ l.map Setting.key)
    (h : ps.assignKey? s.key.name v = some qs) :
    (ps.addLines (l.map Setting.written)).assignKey? s.key.name v =
      some (qs.addLines (l.map Setting.written)) := by
  induction l generalizing ps qs with
  | nil => exact h
  | cons t l ih =>
    rw [List.map_cons, List.mem_cons, not_or] at hs
    exact ih hs.2 (assignKey?_addLine (Ne.symm hs.1) h)

theorem assignKey?_addLines_of_none (hs : s.key ∉ l.map Setting.key)
    (h : ps.assignKey? s.key.name v = none) :
    (ps.addLines (l.map Setting.written)).assignKey? s.key.name v = none := by
  induction l generalizing ps with
  | nil => exact h
  | cons t l ih =>
    rw [List.map_cons, List.mem_cons, not_or] at hs
    exact ih hs.2 (assignKey?_addLine_of_none (Ne.symm hs.1) h)

def added (u written : List Setting) : List Setting := u.filter (· ∉ written)

theorem added_of_perm {more : List Setting} (hs : s ∉ u) (h : more.Perm (s :: written)) :
    added (u ++ [s]) more = added u written := by
  have hmem : s ∈ more := h.mem_iff.mpr List.mem_cons_self
  rw [added, List.filter_append, List.filter_cons_of_neg (by simpa using hmem), List.filter_nil,
    List.append_nil, added]
  apply List.filter_congr
  intro t ht
  have hne : t ≠ s := fun heq => hs (heq ▸ ht)
  simp [h.mem_iff, hne]

theorem added_append (hs : s ∉ written) : added (u ++ [s]) written = added u written ++ [s] := by
  rw [added, List.filter_append, List.filter_cons_of_pos (by simpa using hs), List.filter_nil,
    added]

theorem exists_rewrites (hps : ps.Proper isDelimiter) (hu : (u.map Setting.key).Nodup)
    (hv : ∀ s ∈ u, IsValue s.toValue.directive) :
    ∃ written qs, Rewrites u ps written qs ∧ qs.Proper isDelimiter ∧
      u.foldl assign ps = qs.addLines ((added u written).map Setting.written) := by
  -- from the last update: the pieces it finds are those that the ones before it left, with the
  -- lines that they added behind them, and these lines are of other keys
  induction u using List.reverseRecOn with
  | nil => exact ⟨[], ps, ⟨.refl ps, .nil, by simp⟩, hps, rfl⟩
  | append_singleton u s ih =>
    rw [List.map_append, List.nodup_append] at hu
    obtain ⟨hvu, hvs⟩ := List.forall_mem_append.mp hv
    have hkey : s.key ∉ u.map Setting.key := fun hmem => hu.2.2 _ hmem _ (by simp) rfl
    have hs : s ∉ u := fun hmem => hkey (List.mem_map_of_mem hmem)
    obtain ⟨written, qs, hqs, hproper, hfold⟩ := ih hu.1 hvu
    have hadded : s.key ∉ (added u written).map Setting.key := by
      intro hmem
      exact hkey ((List.filter_sublist.map Setting.key).subset hmem)
    rw [List.foldl_append, hfold, List.foldl_cons, List.foldl_nil, assign]
    cases hrs : qs.assignKey? s.key.name s.toValue.directive with
    | some rs =>
      obtain ⟨more, hperm, hmore⟩ := hqs.assignKey? hkey hrs
      have hrsproper : rs.Proper isDelimiter := by
        rw [← assignKey_of_some hrs]
        exact proper_assign hproper (hvs s List.mem_cons_self)
      refine ⟨more, rs, hmore, hrsproper, ?_⟩
      rw [assignKey_of_some (assignKey?_addLines hadded hrs), added_of_perm hs hperm]
    | none =>
      have hmem : s ∉ written := fun hmem => hs ((hqs.mem_iff s).mp hmem).1
      refine ⟨written, qs, hqs.assignKey?_of_none hkey hrs, hproper, ?_⟩
      rw [assignKey_of_none (assignKey?_addLines_of_none hadded hrs), added_append hmem,
        List.map_append, addLines, addLines, List.foldl_append]
      rfl

/-- How the settings segment `before` becomes `settings` by updates: pieces keep their places and
their delimiters, and lines follow for what no piece was written for. -/
structure Updates (u : List Setting) (before settings : Text) (written : List Setting)
    (pieces : Pieces) : Prop where
  rewrites : Rewrites u (cut isDelimiter before) written pieces
  proper : pieces.Proper isDelimiter
  text_eq : settings = pieces.text ++
    (if added u written = [] ∨ endsLine true pieces.text = true then [] else ['\n']) ++
      (added u written).flatMap fun s => s.written ++ ['\n']

theorem exists_updates (before : Text) (hu : (u.map Setting.key).Nodup)
    (hv : ∀ s ∈ u, IsValue s.toValue.directive) :
    ∃ written pieces, Updates u before (assignAll before u) written pieces := by
  obtain ⟨written, pieces, hrewrites, hproper, hfold⟩ :=
    exists_rewrites (proper_cut isDelimiter before) hu hv
  refine ⟨written, pieces, hrewrites, hproper, ?_⟩
  have hlines : ∀ line ∈ (added u written).map Setting.written, ∀ c ∈ line,
      isDelimiter c = false := by
    intro line hline
    obtain ⟨s, hs, rfl⟩ := List.mem_map.mp hline
    exact (hv s (List.mem_of_mem_filter hs)).line_not_delimiter s.key
  rw [assignAll, hfold, text_addLines hproper hlines, List.flatMap_map]
  simp only [List.map_eq_nil_iff]

/-- An update disturbs nothing else. The text behind the first delimiter stays, or is the whole
block on a new line where it had no delimiter, and so does the number of delimiters but for that
one. In the settings segment every piece stays as it is, except that one piece for each key of the
update may be written in and keeps its key; after the pieces come lines for the other keys. -/
theorem update_frame (source : Text) (u : Overrides) (hu : ∀ s ∈ u.entries, s.SchemaTyped) :
    ∃ before after settings result written pieces,
      (breakDelimiter? source = some (before, after) ∨
        breakDelimiter? source = none ∧ before = [] ∧ after = '\n' :: source) ∧
      update source (toRecord u.entries) = .ok result ∧
      breakDelimiter? result = some (settings, after) ∧
      delimiterCount result = max 1 (delimiterCount source) ∧
      Updates u.entries before settings written pieces := by
  have hv : ∀ s ∈ u.entries, IsValue s.toValue.directive :=
    fun s hs => isValue_of_schemaTyped (hu s hs)
  obtain ⟨written, pieces, hupdates⟩ := exists_updates (split source).1 u.distinct hv
  have hresult : breakDelimiter? (rewrite source (assignments u.entries)) =
      some (assignAll (split source).1 u.entries, (split source).2) := by
    rw [rewrite_eq source hv, breakDelimiter?_append _ (clear_assignAll hv (clear_split source))]
  have hcount : delimiterCount (rewrite source (assignments u.entries)) =
      delimiterCount (split source).2 + 1 := by
    rw [delimiterCount_eq, hresult]
    rfl
  refine ⟨_, _, _, _, written, pieces, ?_, update_toRecord source u.entries, hresult, ?_, hupdates⟩
  · cases hbreak : breakDelimiter? source with
    | none => exact .inr ⟨rfl, by rw [split, hbreak]; rfl, by rw [split, hbreak]; rfl⟩
    | some cut => exact .inl (by rw [split, hbreak]; rfl)
  · rw [hcount, delimiterCount_eq source, split]
    cases hbreak : breakDelimiter? source with
    | none =>
      have hzero : delimiterCount source = 0 := by
        rw [delimiterCount_eq, hbreak]
        rfl
      have hnewline : delimiterCount ('\n' :: source) = delimiterCount source := rfl
      simp only [Option.getD_none, Option.elim_none, hnewline, hzero]
      rfl
    | some cut =>
      simp only [Option.getD_some, Option.elim_some]
      omega

theorem update_frame_flag_edge_size :
    update "grid;left = -5 ;Left=1\r\ny\n---\ny=x"
        (toRecord [.size .width (.int 300), .edge .left (.int (-20)), .flag .grid false]) =
      .ok "grid=false;left = -20 ;Left=1\r\ny\nwidth=300\n---\ny=x" ∧
    ∃ written pieces, Updates
      [.size .width (.int 300), .edge .left (.int (-20)), .flag .grid false]
      "grid;left = -5 ;Left=1\r\ny\n" "grid=false;left = -20 ;Left=1\r\ny\nwidth=300\n"
      written pieces := by
  have hupdate : update "grid;left = -5 ;Left=1\r\ny\n---\ny=x"
        (toRecord [.size .width (.int 300), .edge .left (.int (-20)), .flag .grid false]) =
      .ok "grid=false;left = -20 ;Left=1\r\ny\nwidth=300\n---\ny=x" := by decide +kernel
  obtain ⟨before, after, settings, result, written, pieces, hsource, hresult, hsettings, -, h⟩ :=
    update_frame "grid;left = -5 ;Left=1\r\ny\n---\ny=x"
      ⟨[.size .width (.int 300), .edge .left (.int (-20)), .flag .grid false], by decide⟩
      (by simp [Setting.SchemaTyped])
  refine ⟨hupdate, written, pieces, ?_⟩
  rw [hupdate] at hresult
  cases hresult
  rcases hsource with hsource | ⟨hsource, -⟩
  · cases hsource
    cases hsettings
    exact h
  · cases hsource

end Source

end GraphBlock
