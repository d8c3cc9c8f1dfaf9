import GraphBlock.Proofs.Accepted
import GraphBlock.Proofs.Setting.Overrides
import GraphBlock.Proofs.Text.Trim
import Mathlib.Data.List.Perm.Basic

namespace GraphBlock

theorem exists_of_forall₂ {α β : Type} {R : α → β → Prop} {l : List α} {m : List β} {b : β}
    (h : List.Forall₂ R l m) (hb : b ∈ m) : ∃ a ∈ l, R a b := by
  induction h with
  | nil => cases hb
  | cons hab _ ih =>
    rcases List.mem_cons.mp hb with hb | hb
    · exact ⟨_, List.mem_cons_self, hb ▸ hab⟩
    · obtain ⟨a, ha, hR⟩ := ih hb
      exact ⟨a, List.mem_cons_of_mem _ ha, hR⟩

theorem exists_append_of_forall₂ {α β : Type} {R : α → β → Prop} {l m : List α} {n : List β}
    (h : List.Forall₂ R (l ++ m) n) :
    ∃ a b, n = a ++ b ∧ List.Forall₂ R l a ∧ List.Forall₂ R m b := by
  refine ⟨n.take l.length, n.drop l.length, (List.take_append_drop _ n).symm, ?_, ?_⟩
  · exact (List.forall₂_take_append n l m h.flip).flip
  · exact (List.forall₂_drop_append n l m h.flip).flip

theorem forall₂_append_iff {α β : Type} {R : α → β → Prop} {l m : List α} {a b : List β}
    (h : List.Forall₂ R l a) : List.Forall₂ R (l ++ m) (a ++ b) ↔ List.Forall₂ R m b := by
  induction h with
  | nil => rfl
  | cons hR _ ih => rw [List.cons_append, List.cons_append, List.forall₂_cons, ih, and_iff_right hR]

theorem forall₂_append_cons_iff {α β : Type} {R : α → β → Prop} {l m : List α} {x : β}
    {b : List β} (h : List.Forall₂ R m b) :
    List.Forall₂ R (l ++ m) (x :: b) ↔ ∃ d, l = [d] ∧ R d x := by
  constructor
  · intro hall
    have hlength := hall.length_eq
    rw [List.length_append, List.length_cons, h.length_eq, Nat.add_comm,
      Nat.add_left_cancel_iff] at hlength
    obtain ⟨d, rfl⟩ := List.length_eq_one_iff.mp hlength
    exact ⟨d, rfl, (List.forall₂_cons.mp hall).1⟩
  · rintro ⟨d, rfl, hd⟩
    exact .cons hd h

theorem exists_forall₂ {α β : Type} {R : α → β → Prop} {l : List α} (h : ∀ a ∈ l, ∃ b, R a b) :
    ∃ m, List.Forall₂ R l m := by
  induction l with
  | nil => exact ⟨[], .nil⟩
  | cons a l ih =>
    obtain ⟨⟨b, hb⟩, hl⟩ := List.forall_mem_cons.mp h
    obtain ⟨m, hm⟩ := ih hl
    exact ⟨b :: m, .cons hb hm⟩

namespace Text

theorem not_mem_of_isBlank {c : Char} {a : Text} (hc : isBlank c = false)
    (ha : ∀ x ∈ a, isBlank x = true) : c ∉ a := by
  intro h
  rw [ha c h] at hc
  cases hc

end Text

namespace Overrides

namespace Directive

theorem ofText_assigned {a : Text} (b : Text) (ha : '=' ∉ a) :
    ofText (a ++ '=' :: b) = ⟨Text.trim a, some (Text.trim b)⟩ := by
  rw [ofText, Text.breakAt?_append b ha]

theorem ofText_bare {t : Text} (ht : '=' ∉ t) : ofText t = ⟨Text.trim t, none⟩ := by
  rw [ofText, Text.breakAt?_eq_none_iff.mpr ht]

theorem ofText_append {a t b : Text} (ha : ∀ c ∈ a, Text.isBlank c = true)
    (hb : ∀ c ∈ b, Text.isBlank c = true) : ofText (a ++ t ++ b) = ofText t := by
  have hequals : Text.isBlank '=' = false := by decide
  have ha' := Text.not_mem_of_isBlank hequals ha
  have hb' := Text.not_mem_of_isBlank hequals hb
  cases hbreak : Text.breakAt? '=' t with
  | none =>
    have ht := Text.breakAt?_eq_none_iff.mp hbreak
    have hwhole : '=' ∉ a ++ t ++ b := by simp [ha', ht, hb']
    calc ofText (a ++ t ++ b)
        = ⟨Text.trim (a ++ t ++ b), none⟩ := ofText_bare hwhole
      _ = ⟨Text.trim t, none⟩ := by rw [Text.trim, Text.trimBy_append ha hb, Text.trim]
      _ = ofText t := (ofText_bare ht).symm
  | some cut =>
    obtain ⟨heq, hkey⟩ := Text.breakAt?_eq_some (a := cut.1) (b := cut.2) hbreak
    have hfront : '=' ∉ a ++ cut.1 := by simp [ha', hkey]
    have htrimKey : Text.trim (a ++ cut.1) = Text.trim cut.1 := Text.trimBy_append_left _ ha
    have htrimValue : Text.trim (cut.2 ++ b) = Text.trim cut.2 := Text.trimBy_append_right _ hb
    calc ofText (a ++ t ++ b)
        = ofText (a ++ cut.1 ++ '=' :: (cut.2 ++ b)) := by rw [heq]; simp
      _ = ⟨Text.trim (a ++ cut.1), some (Text.trim (cut.2 ++ b))⟩ := ofText_assigned _ hfront
      _ = ⟨Text.trim cut.1, some (Text.trim cut.2)⟩ := by rw [htrimKey, htrimValue]
      _ = ofText t := by rw [heq, ofText_assigned _ hkey]

theorem ofText_trim (t : Text) : ofText (Text.trim t) = ofText t := by
  obtain ⟨a, b, ha, hb, heq⟩ := Text.exists_pad Text.isBlank t
  conv_rhs => rw [heq]
  exact (ofText_append ha hb).symm

def ofPiece? (piece : Text) : Option Directive :=
  if (Text.trim piece).isEmpty then none else some (ofText piece)

end Directive

theorem Directive.ofPiece?_of_mem {c : Char} {piece : Text} (hc : c ∈ piece)
    (hblank : Text.isBlank c = false) : ofPiece? piece = some (ofText piece) := by
  have hne : Text.trim piece ≠ [] := by
    intro hnil
    rw [Text.trimBy_eq_nil_iff.mp hnil c hc] at hblank
    cases hblank
  rw [ofPiece?, if_neg (by simpa using hne)]

theorem directives_eq (segment : Text) :
    directives segment = (Pieces.cut isDelimiter segment).toList.filterMap Directive.ofPiece? := by
  rw [directives, Text.parts]
  induction (Pieces.cut isDelimiter segment).toList with
  | nil => rfl
  | cons p ps ih =>
    by_cases hp : (Text.trim p).isEmpty
    · simpa [Directive.ofPiece?, hp] using ih
    · simpa [Directive.ofPiece?, hp, Directive.ofText_trim] using ih

theorem directives_lines {ts : List Text} (h : ∀ t ∈ ts, ∀ c ∈ t, isDelimiter c = false) :
    directives (ts.flatMap fun t => t ++ ['\n']) = ts.filterMap Directive.ofPiece? := by
  rw [directives_eq]
  induction ts with
  | nil => rfl
  | cons t ts ih =>
    obtain ⟨ht, hts⟩ := List.forall_mem_cons.mp h
    rw [List.flatMap_cons, List.append_assoc, List.singleton_append,
      Pieces.cut_append_cons _ ht rfl, Pieces.toList, List.filterMap_cons, ih hts,
      List.filterMap_cons]

structure Reads (d : Directive) (s : Setting) : Prop where
  named : Key.named? d.key = some s.key
  read : Setting.read s.key d.value = .ok s

theorem add_eq_ok_iff {o p : Overrides} {d : Directive} :
    o.add d = .ok p ↔ ∃ s, Reads d s ∧ s.key ∉ o.keys ∧ p = o.put s := by
  constructor
  · intro h
    rw [add] at h
    split at h
    · cases h
    · next k hk =>
      split at h
      · cases h
      · next hfresh =>
        obtain ⟨s, hs, hput⟩ := map_eq_ok_iff.mp h
        have hkey := Setting.key_of_read hs
        subst hkey
        exact ⟨s, ⟨hk, hs⟩, hfresh, hput.symm⟩
  · intro h
    obtain ⟨s, hs, hfresh, hput⟩ := h
    simp only [add, hs.named, if_neg hfresh, hs.read, hput]
    rfl

theorem entries_put_of_not_mem {o : Overrides} {s : Setting} (h : s.key ∉ o.keys) :
    (o.put s).entries = o.entries ++ [s] :=
  Setting.put_of_not_mem h

theorem foldlM_add_eq_ok_iff {ds : List Directive} {o p : Overrides} :
    ds.foldlM add o = .ok p ↔ ∃ l, List.Forall₂ Reads ds l ∧ p.entries = o.entries ++ l := by
  induction ds generalizing o with
  | nil =>
    simp only [List.foldlM_nil, List.forall₂_nil_left_iff]
    constructor
    · intro h
      cases h
      exact ⟨[], rfl, (List.append_nil _).symm⟩
    · intro h
      obtain ⟨l, hl, hp⟩ := h
      rw [hl, List.append_nil] at hp
      exact congrArg Except.ok (by cases o; cases p; cases hp; rfl)
  | cons d ds ih =>
    rw [List.foldlM_cons, bind_eq_ok_iff]
    constructor
    · intro h
      obtain ⟨q, hq, hp⟩ := h
      obtain ⟨s, hs, hfresh, hput⟩ := add_eq_ok_iff.mp hq
      obtain ⟨l, hl, hentries⟩ := ih.mp hp
      refine ⟨s :: l, .cons hs hl, ?_⟩
      rw [hentries, hput, entries_put_of_not_mem hfresh, List.append_assoc, List.singleton_append]
    · intro h
      obtain ⟨l, hl, hentries⟩ := h
      cases hl with
      | cons hs hl =>
        next s l =>
        -- a key that came twice would stand twice in the record
        have hfresh : s.key ∉ o.keys := by
          intro hmem
          have hnodup := p.distinct
          rw [hentries, List.map_append, List.nodup_append] at hnodup
          exact hnodup.2.2 _ hmem _ (by simp) rfl
        refine ⟨o.put s, add_eq_ok_iff.mpr ⟨s, hs, hfresh, rfl⟩, ih.mpr ⟨l, hl, ?_⟩⟩
        rw [hentries, entries_put_of_not_mem hfresh, List.append_assoc, List.singleton_append]

/-- A segment is accepted exactly when its directives are read as the settings of a record. -/
theorem parse_eq_ok_iff {segment : Text} {o : Overrides} :
    parse (some segment) = .ok o ↔ List.Forall₂ Reads (directives segment) o.entries := by
  rw [parse, ofDirectives, foldlM_add_eq_ok_iff]
  constructor
  · intro h
    obtain ⟨l, hl, hentries⟩ := h
    rwa [hentries]
  · intro h
    exact ⟨o.entries, h, rfl⟩

theorem exists_parse_of_perm {segment other : Text} {o : Overrides}
    (h : (directives segment).Perm (directives other)) (ho : parse (some segment) = .ok o) :
    ∃ p, parse (some other) = .ok p ∧ o.entries.Perm p.entries := by
  obtain ⟨l, hreads, hperm⟩ := List.perm_comp_forall₂ h.symm (parse_eq_ok_iff.mp ho)
  have hdistinct : (l.map Setting.key).Nodup := (hperm.map Setting.key).nodup_iff.mpr o.distinct
  exact ⟨⟨l, hdistinct⟩, parse_eq_ok_iff.mpr hreads, hperm.symm⟩

end Overrides

end GraphBlock
