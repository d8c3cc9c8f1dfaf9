import GraphBlock.Proofs.Source.Piece

/-!
Reading a settings segment after an update. If its directives were accepted before, they are after
it, and the record that they give is the one before with the settings of the update put into it.
-/

namespace GraphBlock

namespace Overrides

variable {ds : List Directive} {l : List Setting} {k : Key} {v : Text} {s : Setting}

/-- Directives that give a key the text of a value, where putting a setting of that key into a list
would put it; the others are read as the other settings. -/
inductive Given (k : Key) (v : Text) : List Setting → List Directive → Prop
  | nil : Given k v [] [⟨k.name, some v⟩]
  | here {t : Setting} {l : List Setting} {ds : List Directive} (ht : t.key = k)
      (hl : List.Forall₂ Reads ds l) : Given k v (t :: l) (⟨k.name, some v⟩ :: ds)
  | later {d : Directive} {t : Setting} {l : List Setting} {ds : List Directive} (ht : Reads d t)
      (hne : t.key ≠ k) (hl : Given k v l ds) : Given k v (t :: l) (d :: ds)

theorem Given.last (hl : List.Forall₂ Reads ds l) (hk : k ∉ l.map Setting.key) :
    Given k v l (ds ++ [⟨k.name, some v⟩]) := by
  induction hl with
  | nil => exact .nil
  | cons ht _ ih =>
    rw [List.map_cons, List.mem_cons, not_or] at hk
    exact .later ht (Ne.symm hk.1) (ih hk.2)

theorem Given.reads (h : Given k v l ds) (hs : Setting.read k (some v) = .ok s) :
    List.Forall₂ Reads ds (s.put l) := by
  have hskey := Setting.key_of_read hs
  induction h with
  | nil => exact .cons (Source.reads_line hs) .nil
  | here ht hl =>
    rw [Setting.put, if_pos (ht.trans hskey.symm)]
    exact .cons (Source.reads_line hs) hl
  | later ht hne _ ih =>
    rw [Setting.put, if_neg (hskey ▸ hne)]
    exact .cons ht ih

theorem Given.refused {o : Overrides} {e : GraphError} (h : Given k v l ds)
    (hnodup : (o.keys ++ l.map Setting.key).Nodup) (hk : k ∉ o.keys)
    (he : Setting.read k (some v) = .error e) : ds.foldlM add o = .error e := by
  have hadd : ∀ {o : Overrides}, k ∉ o.keys → add o ⟨k.name, some v⟩ = .error e := by
    intro o hk
    simp only [add, Key.named?_eq_some_iff.mpr rfl, if_neg hk, he]
    rfl
  induction h generalizing o with
  | nil => rw [List.foldlM_cons, hadd hk]; rfl
  | here ht hl => rw [List.foldlM_cons, hadd hk]; rfl
  | @later d t l ds ht hne hl ih =>
    have hfresh : t.key ∉ o.keys := by
      intro hmem
      rw [List.nodup_append] at hnodup
      exact hnodup.2.2 _ hmem _ List.mem_cons_self rfl
    have hkeys : (o.put t).keys = o.keys ++ [t.key] := by
      rw [keys, entries_put_of_not_mem hfresh, List.map_append]
      rfl
    have hput : add o d = .ok (o.put t) := add_eq_ok_iff.mpr ⟨t, ht, hfresh, rfl⟩
    rw [List.foldlM_cons, hput]
    apply ih
    · rwa [hkeys, List.append_assoc]
    · rw [hkeys, List.mem_append, List.mem_singleton, not_or]
      exact ⟨hk, Ne.symm hne⟩

end Overrides

namespace Pieces

open Source Overrides

variable {ps qs : Pieces} {l : List Setting} {k : Key} {v : Text}

def Plain (ps : Pieces) : Prop := ∀ p ∈ ps.toList, Source.Plain p

def directives (ps : Pieces) : List Directive := ps.toList.filterMap Directive.ofPiece?

theorem plain_updateFirst? {f : Text → Option Text} (hps : ps.Plain)
    (hf : ∀ p q, f p = some q → Source.Plain p → Source.Plain q)
    (hqs : ps.updateFirst? f = some qs) : qs.Plain := by
  induction ps generalizing qs with
  | last p =>
    obtain ⟨q, hq, rfl⟩ := Option.map_eq_some_iff.mp hqs
    intro r hr
    rw [List.mem_singleton.mp hr]
    exact hf p q hq (hps p List.mem_cons_self)
  | closed p d rest ih =>
    have hrest : rest.Plain := by
      intro r hr
      exact hps r (List.mem_cons_of_mem _ hr)
    rw [updateFirst?] at hqs
    split at hqs
    · next q hq =>
      cases hqs
      intro r hr
      rcases List.mem_cons.mp hr with hr | hr
      · rw [hr]
        exact hf p q hq (hps p List.mem_cons_self)
      · exact hrest r hr
    · obtain ⟨rs, hrs, rfl⟩ := Option.map_eq_some_iff.mp hqs
      intro r hr
      rcases List.mem_cons.mp hr with hr | hr
      · rw [hr]
        exact hps p List.mem_cons_self
      · exact ih hrest hrs r hr

theorem toList_addLine (line : Text) (fresh : Bool) (ps : Pieces) :
    ∃ empty, (ps.addLine line fresh).toList = empty ++ [line, []] ∧
      (empty = ps.toList ∨ ps.toList = empty ++ [[]]) := by
  induction ps generalizing fresh with
  | last p =>
    rw [addLine]
    split
    · next h => exact ⟨[], rfl, .inr (by rw [toList, h.2]; rfl)⟩
    · exact ⟨[p], rfl, .inl rfl⟩
  | closed p d rest ih =>
    obtain ⟨front, hline, hfront⟩ := ih (d == '\n')
    refine ⟨p :: front, by rw [addLine, toList, hline]; rfl, ?_⟩
    rcases hfront with hfront | hfront
    · exact .inl (by rw [hfront, toList])
    · exact .inr (by rw [toList, hfront, List.cons_append])

theorem plain_addLine {line : Text} (fresh : Bool) (hps : ps.Plain) (hline : Source.Plain line) :
    (ps.addLine line fresh).Plain := by
  obtain ⟨front, htoList, hfront⟩ := toList_addLine line fresh ps
  intro p hp
  rw [htoList] at hp
  simp only [List.mem_append, List.mem_cons, List.not_mem_nil, or_false] at hp
  rcases hp with hp | hp | hp
  · apply hps
    rcases hfront with hfront | hfront
    · exact hfront ▸ hp
    · rw [hfront]
      exact List.mem_append_left _ hp
  · exact hp ▸ hline
  · rw [hp]
    exact fun c hc => absurd hc (by simp)

theorem directives_addLine (line : Text) (fresh : Bool) (ps : Pieces) :
    (ps.addLine line fresh).directives =
      ps.directives ++ (Directive.ofPiece? line).toList := by
  have hnil : Directive.ofPiece? [] = none := rfl
  obtain ⟨front, htoList, hfront⟩ := toList_addLine line fresh ps
  have hdirectives : ps.directives = front.filterMap Directive.ofPiece? := by
    rcases hfront with hfront | hfront
    · rw [directives, hfront]
    · rw [directives, hfront, List.filterMap_append]
      simp [hnil]
  rw [hdirectives, directives, htoList, List.filterMap_append]
  cases h : Directive.ofPiece? line <;> simp [h, hnil]

theorem directives_last (p : Text) : (last p).directives = (Directive.ofPiece? p).toList := by
  rw [directives, toList, List.filterMap_cons]
  cases Directive.ofPiece? p <;> rfl

theorem directives_closed (p : Text) (d : Char) (rest : Pieces) :
    (closed p d rest).directives = (Directive.ofPiece? p).toList ++ rest.directives := by
  rw [directives, toList, List.filterMap_cons]
  cases Directive.ofPiece? p <;> rfl

theorem given_updateFirst? {f : Text → Option Text} (hf : IsAssignment k v f) (hv : IsValue v)
    (hplain : ps.Plain) (hl : List.Forall₂ Reads ps.directives l)
    (hnodup : (l.map Setting.key).Nodup) (hqs : ps.updateFirst? f = some qs) :
    k ∈ l.map Setting.key ∧ Given k v l qs.directives := by
  -- the piece that is changed holds the first of the settings that are left
  have hchanged : ∀ {p q : Text} {ds : List Directive} {l : List Setting}, f p = some q →
      Source.Plain p → List.Forall₂ Reads ((Directive.ofPiece? p).toList ++ ds) l →
      k ∈ l.map Setting.key ∧ Given k v l ((Directive.ofPiece? q).toList ++ ds) := by
    intro p q ds l hpq hp hl
    rw [ofPiece?_of_afterKey? (hf.isSome_afterKey? hpq).1] at hl
    cases hl with
    | cons ht hl =>
      obtain ⟨hkey, htext⟩ := hf.ofText_eq hv hpq hp ht
      rw [ofPiece?_of_afterKey? (hf.isSome_afterKey? hpq).2, htext]
      exact ⟨by simp [hkey], .here hkey hl⟩
  induction ps generalizing qs l with
  | last p =>
    obtain ⟨q, hq, rfl⟩ := Option.map_eq_some_iff.mp hqs
    rw [directives_last, ← List.append_nil (Option.toList _)] at hl ⊢
    exact hchanged hq (hplain p List.mem_cons_self) hl
  | closed p d rest ih =>
    have hrest : rest.Plain := by
      intro r hr
      exact hplain r (List.mem_cons_of_mem _ hr)
    rw [directives_closed] at hl
    rw [updateFirst?] at hqs
    split at hqs
    · next q hq =>
      cases hqs
      rw [directives_closed]
      exact hchanged hq (hplain p List.mem_cons_self) hl
    · obtain ⟨rs, hrs, rfl⟩ := Option.map_eq_some_iff.mp hqs
      rw [directives_closed]
      cases hp : Directive.ofPiece? p with
      | none =>
        rw [hp] at hl
        exact ih hrest hl hnodup hrs
      | some d =>
        rw [hp] at hl
        cases hl with
        | cons ht hl =>
          next t l =>
          rw [List.map_cons, List.nodup_cons] at hnodup
          obtain ⟨hmem, hgiven⟩ := ih hrest hl hnodup.2 hrs
          have hne : t.key ≠ k := fun heq => hnodup.1 (heq ▸ hmem)
          exact ⟨List.mem_cons_of_mem _ hmem, .later ht hne hgiven⟩

theorem not_mem_of_assignKey?_eq_none (hplain : ps.Plain)
    (hl : List.Forall₂ Reads ps.directives l) (h : ps.assignKey? k.name v = none) :
    k ∉ l.map Setting.key := by
  obtain ⟨hassign, hbare⟩ := assignKey?_eq_none_iff.mp h
  intro hk
  obtain ⟨s, hs, hkey⟩ := List.mem_map.mp hk
  obtain ⟨d, hd, hreads⟩ := exists_of_forall₂ hl hs
  obtain ⟨p, hp, hpd⟩ := List.mem_filterMap.mp hd
  have htext : Directive.ofText p = d := by
    rw [Directive.ofPiece?] at hpd
    split at hpd
    · cases hpd
    · exact Option.some.inj hpd
  rw [← htext] at hreads
  rcases isSome_assign?_or v (hplain p hp) hreads with hsome | hsome
  · rw [hkey, updateFirst?_eq_none_iff.mp hassign p hp] at hsome
    cases hsome
  · rw [hkey, updateFirst?_eq_none_iff.mp hbare p hp] at hsome
    cases hsome

theorem given_assignKey (hv : IsValue v) (hplain : ps.Plain)
    (hl : List.Forall₂ Reads ps.directives l) (hnodup : (l.map Setting.key).Nodup) :
    Given k v l (ps.assignKey k.name v).directives := by
  cases h : ps.assignKey? k.name v with
  | some qs =>
    rw [assignKey_of_some h]
    rcases assignKey?_eq_some_iff.mp h with h | ⟨-, h⟩
    · exact (given_updateFirst? .assign hv hplain hl hnodup h).2
    · exact (given_updateFirst? .bare hv hplain hl hnodup h).2
  | none =>
    rw [assignKey_of_none h, directives_addLine, ofPiece?_line k hv]
    exact .last hl (not_mem_of_assignKey?_eq_none hplain hl h)

theorem plain_assignKey (hv : IsValue v) (hplain : ps.Plain) : (ps.assignKey k.name v).Plain := by
  cases h : ps.assignKey? k.name v with
  | some qs =>
    rw [assignKey_of_some h]
    rcases assignKey?_eq_some_iff.mp h with h | ⟨-, h⟩
    · exact plain_updateFirst? hplain (fun p q => IsAssignment.assign.plain hv) h
    · exact plain_updateFirst? hplain (fun p q => IsAssignment.bare.plain hv) h
  | none =>
    have hbare : assignBare? k.name v k.name = some (k.name ++ '=' :: v) :=
      assignBare?_eq_some_iff.mpr ⟨[], [], by simp, by simp, by simp, by simp⟩
    have hname : Source.Plain k.name := by
      intro c hc hblank
      rw [k.name_not_blank c hc] at hblank
      cases hblank
    rw [assignKey_of_none h]
    exact plain_addLine true hplain (IsAssignment.bare.plain hv hbare hname)

theorem reads_foldl_assign {u : List Setting} (hu : ∀ s ∈ u, s.Typed) (hplain : ps.Plain)
    (hl : List.Forall₂ Reads ps.directives l) (hnodup : (l.map Setting.key).Nodup) :
    ∃ u', List.Forall₂ Setting.Same u' u ∧
      List.Forall₂ Reads (u.foldl assign ps).directives (u'.foldl (fun l s => s.put l) l) ∧
      (u.foldl assign ps).Plain := by
  induction u generalizing ps l with
  | nil => exact ⟨[], .nil, hl, hplain⟩
  | cons s u ih =>
    have hs := hu s List.mem_cons_self
    have hv := isValue_directive hs.spellable
    obtain ⟨t, hread, hsame⟩ := Setting.read_directive hs
    have hreads := (given_assignKey hv hplain hl hnodup).reads hread
    obtain ⟨u', hu', hreads', hplain'⟩ := ih (fun t ht => hu t (List.mem_cons_of_mem _ ht))
      (plain_assignKey hv hplain) hreads (Setting.nodup_put hnodup)
    exact ⟨t :: u', .cons hsame hu', hreads', hplain'⟩

end Pieces

namespace Source

open Overrides

/-- A settings segment whose only blanks are spaces, tabs and the ends of lines. -/
def PlainSegment (t : Text) : Prop :=
  ∀ c ∈ t, Text.isBlank c = true → c = ' ' ∨ c = '\t' ∨ c = '\r' ∨ c = '\n'

instance (t : Text) : Decidable (PlainSegment t) :=
  inferInstanceAs (Decidable (∀ c ∈ t, Text.isBlank c = true → _))

theorem plainSegment_of_segments {source a b : Text} (hsource : segments source = .ok (some a, b))
    (ha : PlainSegment a) (settings equations : Text)
    (h : segments source = .ok (some settings, equations)) : PlainSegment settings := by
  rw [hsource] at h
  cases h
  exact ha

theorem plain_cut {t : Text} (ht : PlainSegment t) : (Pieces.cut isDelimiter t).Plain := by
  intro p hp c hc hblank
  have hdelimiter := (Pieces.proper_cut isDelimiter t).not_delimiter hp c hc
  have hmem : c ∈ t := by
    rw [← Pieces.text_cut isDelimiter t]
    exact (Pieces.infix_text hp).subset hc
  rcases ht c hmem hblank with h | h | h | h <;> subst h
  · rfl
  · rfl
  · cases hdelimiter
  · cases hdelimiter

/-- An accepted segment is accepted after an update, and its record is the one before with the
settings of the update, as they are read, put into it. -/
theorem parse_assignAll {t : Text} {o : Overrides} {u : List Setting}
    (hplain : (Pieces.cut isDelimiter t).Plain) (h : Overrides.parse (some t) = .ok o)
    (hu : ∀ s ∈ u, s.Typed) :
    ∃ u', List.Forall₂ Setting.Same u' u ∧
      Overrides.parse (some (assignAll t u)) = .ok (o.putAll u') ∧
      (Pieces.cut isDelimiter (assignAll t u)).Plain := by
  rw [parse_eq_ok_iff, directives_eq] at h
  obtain ⟨u', hsame, hreads, hplain'⟩ := Pieces.reads_foldl_assign hu hplain h o.distinct
  have hcut := cut_assignAll t fun s hs => isValue_directive (hu s hs).spellable
  refine ⟨u', hsame, ?_, by rwa [hcut]⟩
  rw [parse_eq_ok_iff, directives_eq, hcut, entries_putAll]
  exact hreads

/-- An update that ends with a value that is refused, and is read as typed settings before, makes a
segment that is refused for that value. -/
theorem parse_assignAll_refused {t : Text} {o : Overrides} {u : List Setting} {s : Setting}
    {e : GraphError} (hplain : (Pieces.cut isDelimiter t).Plain)
    (h : Overrides.parse (some t) = .ok o) (hu : ∀ s ∈ u, s.Typed)
    (hv : IsValue s.toValue.directive)
    (he : Setting.read s.key (some s.toValue.directive) = .error e) :
    Overrides.parse (some (assignAll t (u ++ [s]))) = .error e := by
  rw [parse_eq_ok_iff, directives_eq] at h
  obtain ⟨u', -, hreads, hplain'⟩ := Pieces.reads_foldl_assign hu hplain h o.distinct
  rw [← entries_putAll] at hreads
  have hgiven := Pieces.given_assignKey (k := s.key) hv hplain' hreads (o.putAll u').distinct
  have hvalues : ∀ r ∈ u ++ [s], IsValue r.toValue.directive := by
    intro r hr
    rcases List.mem_append.mp hr with hr | hr
    · exact isValue_directive (hu r hr).spellable
    · exact List.mem_singleton.mp hr ▸ hv
  rw [Overrides.parse, ofDirectives, directives_eq, cut_assignAll t hvalues, List.foldl_append]
  exact hgiven.refused (o.putAll u').distinct (by simp [keys, empty]) he

end Source

end GraphBlock
