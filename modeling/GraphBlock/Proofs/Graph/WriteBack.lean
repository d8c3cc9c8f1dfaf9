import GraphBlock.Proofs.Graph.Live
import GraphBlock.Proofs.Setting.Lookup

namespace GraphBlock

open Overrides

namespace Overrides

variable {o : Overrides} {s : Settings} {u : List Setting}

theorem exists_get?_putAll (o : Overrides) (hu : List.Forall₂ Setting.Same u s.toList) (k : Key) :
    ∃ t, (o.putAll u).get? k = some t ∧ t.Same (s.get k) := by
  have hfilter : List.Forall₂ Setting.Same (u.filter (·.key = k)) (s.toList.filter (·.key = k)) :=
    List.rel_filter (fun a b hab => by simp [hab.key_eq]) hu
  rw [Settings.filter_toList] at hfilter
  obtain ⟨t, m, hsame, hm, heq⟩ := List.forall₂_cons_right_iff.mp hfilter
  rw [List.forall₂_nil_right_iff.mp hm] at heq
  exact ⟨t, by rw [get?_putAll, heq]; rfl, hsame⟩

theorem adjusted_putAll (o : Overrides) (hu : List.Forall₂ Setting.Same u s.toList) :
    (o.putAll u).adjusted = o.putAll u := by
  apply adjusted_of_edges
  intro e
  obtain ⟨t, hget, hsame⟩ := exists_get?_putAll o hu (.edge e)
  rw [edge?, hget]
  cases e <;> cases hsame <;> rfl

theorem same_ofOverrides_putAll (o : Overrides) (hu : List.Forall₂ Setting.Same u s.toList) :
    (Settings.ofOverrides (o.putAll u).adjusted).Same s := by
  intro k
  obtain ⟨t, hget, hsame⟩ := exists_get?_putAll o hu k
  rw [adjusted_putAll o hu, Settings.ofOverrides, Settings.get_merged, hget]
  exact hsame

end Overrides

namespace Graph

variable {advise : Text → Option Hint} {source : Text} {equations : List Equation}
  {hint : Option Hint} {o : Overrides}

theorem Reads.refused (h : Reads advise source equations hint o) {l : List Setting} {e : GraphError}
    (hl : ∀ s ∈ l, Source.IsValue s.toValue.directive)
    (he : Overrides.parse (some (Source.assignAll (Source.split source).1 l)) = .error e) :
    parse advise (Source.rewrite source (Source.assignments l)) = .error e := by
  have hclear := Source.clear_assignAll hl (Source.clear_split source)
  have hsegments : Source.segments (Source.rewrite source (Source.assignments l)) =
      .ok (some (Source.assignAll (Source.split source).1 l), (Source.split source).2) := by
    rw [Source.rewrite_eq source hl, Source.segments, Source.breakDelimiter?_append _ hclear]
    simp only [h.single, Option.isSome_none, Bool.false_eq_true, if_false]
  rw [parse, hsegments]
  simp only [bind, Except.bind, h.lines, he]

theorem Reads.writeBack (h : Reads advise source equations hint o)
    (hplain : (Pieces.cut isDelimiter (Source.split source).1).Plain) {g : Graph}
    (hg : ∀ s ∈ g.settings.toList, s.Typed) :
    ∃ k, parse advise (Source.rewrite source (Source.assignments g.settings.toList)) = .ok k ∧
      k.settings.Same g.settings := by
  obtain ⟨text, u, hupdate, hu, hreads, -⟩ := h.update hplain hg
  rw [Source.update_toRecord] at hupdate
  rw [← Except.ok.inj hupdate] at hreads
  have hsame := same_ofOverrides_putAll o hu
  obtain ⟨k, hk⟩ := exists_build equations hint (hsame.validate_eq_ok_iff.mpr g.valid)
  obtain ⟨-, hwritten, -⟩ := build_eq_ok_iff.mp hk
  refine ⟨k, by rw [hreads.parse_eq, hk], ?_⟩
  rw [Graph.settings, hwritten]
  exact hsame

theorem Reads.writeBack_unset (h : Reads advise source equations hint o)
    (hplain : (Pieces.cut isDelimiter (Source.split source).1).Plain) {g : Graph}
    (hg : ∀ s ∈ g.settings.toList, s ≠ .defaultColor none → s.Typed)
    (hunset : g.settings.defaultColor = none) :
    parse advise (Source.rewrite source (Source.assignments g.settings.toList)) =
      .error (.notColor Key.defaultColor.name) := by
  have hlist : g.settings.toList =
      Key.all.dropLast.map g.settings.get ++ [.defaultColor none] := by
    rw [← hunset]
    rfl
  have hother : ∀ k ∈ Key.all.dropLast, k ≠ .defaultColor := by decide
  have htyped : ∀ s ∈ Key.all.dropLast.map g.settings.get, s.Typed := by
    intro s hs
    apply hg s (by rw [hlist]; exact List.mem_append_left _ hs)
    intro heq
    obtain ⟨k, hk, hget⟩ := List.mem_map.mp hs
    have hkey := congrArg Setting.key (hget.trans heq)
    rw [Settings.key_get] at hkey
    exact hother k hk hkey
  rw [hlist]
  apply h.refused
  · intro s hs
    rcases List.mem_append.mp hs with hs | hs
    · exact Source.isValue_directive (htyped s hs).spellable
    · exact List.mem_singleton.mp hs ▸ Source.isValue_unset
  · exact Source.parse_assignAll_refused hplain h.settings htyped Source.isValue_unset rfl

/-- A full write-back gives a block that is read with the settings that were written, where there is
a default color among them, and one that is refused for its default color where there is none. -/
theorem parse_writeBack (advise : Text → Option Hint) (source : Text) (k₀ : Graph)
    (hparse : parse advise source = .ok k₀)
    (hblanks : ∀ settings equations, Source.segments source = .ok (some settings, equations) →
      Source.PlainSegment settings)
    (g : Graph) (hg : ∀ s ∈ g.settings.toList, s ≠ .defaultColor none → s.Typed) :
    ∃ text, Source.update source (toRecord g.settings.toList) = .ok text ∧
      (g.settings.defaultColor ≠ none →
        ∃ k, parse advise text = .ok k ∧ k.settings.Same g.settings) ∧
      (g.settings.defaultColor = none →
        parse advise text = .error (.notColor Key.defaultColor.name)) := by
  have hreads := reads_of_parse hparse
  have hplain := plain_of_segments hparse hblanks
  refine ⟨_, Source.update_toRecord source g.settings.toList, ?_, ?_⟩
  · intro hset
    apply hreads.writeBack hplain
    intro s hs
    apply hg s hs
    intro heq
    have hget := Settings.get_key_of_mem hs
    rw [heq] at hget
    exact hset (Setting.defaultColor.inj hget)
  · exact hreads.writeBack_unset hplain hg

theorem parse_writeBack_colored :
    ∃ g k, build [] ⟨[.edge .left (.int 30), .defaultColor (some (.named .red))], by decide⟩ none =
        .ok g ∧
      Source.update "grid ; left = 20\n---\ny=x" (toRecord g.settings.toList) =
        .ok ("grid=true ; left = 30\nwidth=600\nheight=400\nright=50\nbottom=-7\ntop=7\n" ++
          "lock=false\nhideAxisNumbers=false\ndegreeMode=radians\ndefaultColor=red\n---\ny=x") ∧
      parse Hint.bare
        ("grid=true ; left = 30\nwidth=600\nheight=400\nright=50\nbottom=-7\ntop=7\n" ++
          "lock=false\nhideAxisNumbers=false\ndegreeMode=radians\ndefaultColor=red\n---\ny=x") =
          .ok k ∧
      k.settings.Same g.settings := by
  obtain ⟨g, hg⟩ := exists_ok (x := build []
    ⟨[.edge .left (.int 30), .defaultColor (some (.named .red))], by decide⟩ none)
    (by decide +kernel)
  obtain ⟨k₀, hk₀⟩ := exists_ok (x := parse Hint.bare "grid ; left = 20\n---\ny=x")
    (by decide +kernel)
  obtain ⟨-, hwritten, -⟩ := build_eq_ok_iff.mp hg
  have hlist : g.settings.toList =
      [.size .width (.int 600), .size .height (.int 400), .edge .left (.int 30),
        .edge .right (.int 50), .edge .bottom (.int (-7)), .edge .top (.int 7), .flag .grid true,
        .flag .lock false, .flag .hideAxisNumbers false, .degreeMode .radians,
        .defaultColor (some (.named .red))] := by
    rw [Graph.settings, hwritten]
    decide +kernel
  have hcolor : g.settings.defaultColor ≠ none := by
    have hget := Settings.get_key_of_mem (s := g.settings)
      (t := .defaultColor (some (.named .red))) (by rw [hlist]; decide)
    rw [Setting.defaultColor.inj hget]
    decide
  have hupdate : Source.update "grid ; left = 20\n---\ny=x" (toRecord g.settings.toList) =
      .ok ("grid=true ; left = 30\nwidth=600\nheight=400\nright=50\nbottom=-7\ntop=7\n" ++
        "lock=false\nhideAxisNumbers=false\ndegreeMode=radians\ndefaultColor=red\n---\ny=x") := by
    rw [hlist]
    decide +kernel
  have hsegments : Source.segments "grid ; left = 20\n---\ny=x" =
      .ok (some "grid ; left = 20\n", "\ny=x") := by decide
  obtain ⟨text, htext, hset, -⟩ := parse_writeBack Hint.bare "grid ; left = 20\n---\ny=x" k₀ hk₀
    (Source.plainSegment_of_segments hsegments (by decide))
    g (by simp [hlist, Setting.Typed, Number.Finite, Number.Exact, Color.Readable])
  obtain ⟨k, hk, hsame⟩ := hset hcolor
  rw [hupdate] at htext
  rw [← Except.ok.inj htext] at hk
  exact ⟨g, k, hg, hupdate, hk, hsame⟩

/-- The default settings, written into the empty block that is read with them. -/
theorem not_parse_writeBack_blank :
    ∃ text, parse Hint.bare [] = .ok blank ∧
      (∀ s ∈ blank.settings.toList, s ≠ .defaultColor none → s.Typed) ∧
      Source.update [] (toRecord blank.settings.toList) = .ok text ∧
      ∀ k, parse Hint.bare text ≠ .ok k := by
  have hlist : blank.settings.toList =
      [.size .width (.int 600), .size .height (.int 400), .edge .left (.int (-10)),
        .edge .right (.int 10), .edge .bottom (.int (-7)), .edge .top (.int 7), .flag .grid true,
        .flag .lock false, .flag .hideAxisNumbers false, .degreeMode .radians,
        .defaultColor none] := by
    decide
  have hreads : Reads Hint.bare [] [] none .empty := ⟨rfl, rfl, rfl⟩
  have hupdate : Source.update [] (toRecord blank.settings.toList) =
      .ok ("width=600\nheight=400\nleft=-10\nright=10\nbottom=-7\ntop=7\n" ++
        "grid=true\nlock=false\nhideAxisNumbers=false\ndegreeMode=radians\ndefaultColor=None\n" ++
        "---\n") := by
    rw [hlist]
    decide +kernel
  have hrefused : (parse Hint.bare
      ("width=600\nheight=400\nleft=-10\nright=10\nbottom=-7\ntop=7\n" ++
        "grid=true\nlock=false\nhideAxisNumbers=false\ndegreeMode=radians\ndefaultColor=None\n" ++
        "---\n")).isOk = false := by
    decide +kernel
  refine ⟨_, ?_, ?_, hupdate, ?_⟩
  · rw [hreads.parse_eq]
    exact build_eq_ok_iff.mpr ⟨rfl, rfl, rfl⟩
  · simp [hlist, Setting.Typed, Number.Finite, Number.Exact]
  · intro k hk
    rw [hk] at hrefused
    cases hrefused

end Graph

end GraphBlock
