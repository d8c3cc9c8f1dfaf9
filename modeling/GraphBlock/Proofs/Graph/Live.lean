import GraphBlock.Proofs.Graph.Agreement
import GraphBlock.Proofs.Source.Reread

/-!
The graph and the text of a block under the same updates. The text stays one that is read as the
graph: after every run of updates that the graph accepts, and refused where the graph refuses the
last of them.
-/

namespace GraphBlock

open Overrides

namespace Source

def updateAll (source : Text) (us : List Overrides) : Except GraphError Text :=
  us.foldlM (fun t u => update t (toRecord u.entries)) source

end Source

namespace Graph

def withAll (g : Graph) (us : List Overrides) : Except GraphError Graph := us.foldlM withSettings g

variable {advise : Text → Option Hint} {source : Text} {equations : List Equation}
  {hint : Option Hint} {o : Overrides}

theorem Reads.update (h : Reads advise source equations hint o)
    (hplain : (Pieces.cut isDelimiter (Source.split source).1).Plain) {u : List Setting}
    (hu : ∀ s ∈ u, s.Typed) :
    ∃ text u', Source.update source (toRecord u) = .ok text ∧ List.Forall₂ Setting.Same u' u ∧
      Reads advise text equations hint (o.putAll u') ∧
      (Pieces.cut isDelimiter (Source.split text).1).Plain := by
  obtain ⟨u', hsame, hparse, hplain'⟩ := Source.parse_assignAll hplain h.settings hu
  have hsplit := Source.split_rewrite source
    fun s hs => Source.isValue_directive (hu s hs).spellable
  refine ⟨_, u', Source.update_toRecord source u, hsame, ⟨?_, ?_, ?_⟩, ?_⟩
  · rw [hsplit]
    exact h.single
  · rw [hsplit]
    exact h.lines
  · rw [hsplit]
    exact hparse
  · rw [hsplit]
    exact hplain'

/-- A run of updates of a block that is read: the text is read as the merged record. -/
theorem Reads.updateAll {q : Overrides} {us : List Overrides}
    (h : Reads advise source equations hint o) (hoq : o.Same q)
    (hplain : (Pieces.cut isDelimiter (Source.split source).1).Plain)
    (hus : ∀ u ∈ us, ∀ s ∈ u.entries, s.Typed) :
    ∃ text p, Source.updateAll source us = .ok text ∧ Reads advise text equations hint p ∧
      p.Same (us.foldl merge q) := by
  induction us generalizing source o q with
  | nil => exact ⟨source, o, rfl, h, hoq⟩
  | cons u us ih =>
    obtain ⟨text, u', hupdate, hsame, hreads, hplain⟩ := h.update hplain (hus u List.mem_cons_self)
    obtain ⟨final, p, hupdates, hreads, hp⟩ := ih hreads (hoq.putAll hsame) hplain
      fun v hv => hus v (List.mem_cons_of_mem _ hv)
    refine ⟨final, p, ?_, hreads, hp⟩
    rw [Source.updateAll, List.foldlM_cons, hupdate]
    exact hupdates

theorem withAll_eq_ok {g h : Graph} {us : List Overrides} (hall : g.withAll us = .ok h) :
    h.source = g.source ∧ h.written = us.foldl merge g.written ∧ h.hint = g.hint := by
  induction us generalizing g with
  | nil =>
    cases hall
    exact ⟨rfl, rfl, rfl⟩
  | cons u us ih =>
    rw [withAll, List.foldlM_cons] at hall
    obtain ⟨k, hk, hall⟩ := bind_eq_ok_iff.mp hall
    obtain ⟨ksource, kwritten, khint⟩ := build_eq_ok_iff.mp hk
    obtain ⟨hsource, hwritten, hhint⟩ := ih hall
    exact ⟨hsource.trans ksource, by rw [hwritten, kwritten, List.foldl_cons],
      hhint.trans khint⟩

theorem exact_foldl_merge {q : Overrides} {us : List Overrides} (hq : q.Exact)
    (hus : ∀ u ∈ us, ∀ s ∈ u.entries, s.Typed) : (us.foldl merge q).Exact := by
  have hall : ∀ s ∈ (us.foldl merge q).entries, ∀ e x, s = .edge e x → x.Exact := by
    apply forall_foldl_merge
    · intro u hu s hs e x heq
      have htyped := hus u hu s hs
      rw [heq] at htyped
      exact htyped.2
    · exact fun s hs e x heq => hq e x (heq ▸ hs)
  exact fun e x hx => hall _ hx e x rfl

theorem plain_of_segments {g : Graph} (hparse : parse advise source = .ok g)
    (hblanks : ∀ settings equations, Source.segments source = .ok (some settings, equations) →
      Source.PlainSegment settings) :
    (Pieces.cut isDelimiter (Source.split source).1).Plain := by
  apply Source.plain_cut
  cases hbreak : Source.breakDelimiter? source with
  | none =>
    rw [Source.split, hbreak]
    exact fun c hc => absurd hc (by simp)
  | some cut =>
    obtain ⟨a, b⟩ := cut
    have hsplit : Source.split source = (a, b) := by rw [Source.split, hbreak]; rfl
    have hsingle := (reads_of_parse hparse).single
    rw [hsplit] at hsingle ⊢
    apply hblanks a b
    simp only [Source.segments, hbreak, hsingle, Option.isSome_none, Bool.false_eq_true, if_false]

/-- A run of updates of the graph and of the text. Where the graph accepts all of them, the text is
read as a graph that agrees with it; where the graph refuses the last one, the text is refused. -/
theorem parse_updateAll (advise : Text → Option Hint) (source : Text) (g : Graph)
    (hparse : parse advise source = .ok g)
    (hblanks : ∀ settings equations, Source.segments source = .ok (some settings, equations) →
      Source.PlainSegment settings)
    (us : List Overrides) (hus : ∀ u ∈ us, ∀ s ∈ u.entries, s.Typed) :
    ∃ text, Source.updateAll source us = .ok text ∧
      (∀ h, g.withAll us = .ok h → ∃ k, parse advise text = .ok k ∧ k.Agrees h) ∧
      (∀ init last h e, us = init ++ [last] → g.withAll init = .ok h →
        h.withSettings last = .error e → ∃ e', parse advise text = .error e') := by
  -- the record that the text holds, followed through the run, decides both cases
  have hreads := reads_of_parse hparse
  obtain ⟨text, p, hupdates, htext, hp⟩ := hreads.updateAll (Overrides.Same.refl g.written)
    (plain_of_segments hparse hblanks) hus
  have hpExact : p.Exact := exact_of_parse htext.settings
  have hqExact : (us.foldl merge g.written).Exact :=
    exact_foldl_merge (exact_of_parse hreads.settings) hus
  refine ⟨text, hupdates, ?_, ?_⟩
  · intro h hall
    obtain ⟨hsource, hwritten, hhint⟩ := withAll_eq_ok hall
    rw [htext.parse_eq]
    exact build_agrees hp hpExact hqExact
      (build_eq_ok_iff.mpr ⟨hsource, hwritten, hhint⟩)
  · intro init last h e hlast hall hrefused
    obtain ⟨hsource, hwritten, hhint⟩ := withAll_eq_ok hall
    have hmerged : us.foldl merge g.written = h.written.merge last := by
      rw [hlast, List.foldl_append, ← hwritten]
      rfl
    rw [hmerged] at hp hqExact
    rw [htext.parse_eq, ← hsource, ← hhint]
    exact build_refused hp hpExact hqExact hrefused

/-- A flag without a value, a key with blanks and a bound that is inferred; the second update moves
the edge from which it is inferred. -/
theorem parse_updateAll_inferred :
    ∃ g h k text, parse Hint.bare "grid ; left = 20\n---\ny=x | x<1" = .ok g ∧
      g.withAll [⟨[.flag .grid false, .size .width (.int 700)], by decide⟩,
        ⟨[.edge .left (.int 30)], by decide⟩] = .ok h ∧
      Source.updateAll "grid ; left = 20\n---\ny=x | x<1"
        [⟨[.flag .grid false, .size .width (.int 700)], by decide⟩,
          ⟨[.edge .left (.int 30)], by decide⟩] = .ok text ∧
      parse Hint.bare text = .ok k ∧ k.Agrees h := by
  have hall : (parse Hint.bare "grid ; left = 20\n---\ny=x | x<1" >>= fun g =>
      g.withAll [⟨[.flag .grid false, .size .width (.int 700)], by decide⟩,
        ⟨[.edge .left (.int 30)], by decide⟩]).isOk = true := by decide +kernel
  have hsegments : Source.segments "grid ; left = 20\n---\ny=x | x<1" =
      .ok (some "grid ; left = 20\n", "\ny=x | x<1") := by decide
  obtain ⟨h, hall⟩ := exists_ok hall
  obtain ⟨g, hg, hall⟩ := bind_eq_ok_iff.mp hall
  obtain ⟨text, htext, hagrees, -⟩ := parse_updateAll _ _ g hg
    (Source.plainSegment_of_segments hsegments (by decide))
    [⟨[.flag .grid false, .size .width (.int 700)], by decide⟩,
      ⟨[.edge .left (.int 30)], by decide⟩]
    (by simp [Setting.Typed, Number.Finite, Number.Exact])
  obtain ⟨k, hk, hkh⟩ := hagrees h hall
  exact ⟨g, h, k, text, hg, hall, htext, hk, hkh⟩

end Graph

end GraphBlock
