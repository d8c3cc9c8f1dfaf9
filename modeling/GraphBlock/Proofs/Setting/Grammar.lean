import GraphBlock.Proofs.Setting.Conversion
import GraphBlock.Proofs.Setting.Directives
import GraphBlock.Proofs.Text.Runs
import Mathlib.Data.List.Nodup

/-!
The grammar of a settings segment. A segment is accepted exactly when its directives keep to the
grammar, its record then has an entry for each directive, and otherwise the first directive that is
out of place after the ones before it decides the error.
-/

namespace GraphBlock.Overrides

variable {segment : Text} {ds : List Directive} {d : Directive} {s : Setting} {e : GraphError}

inductive Directive.Offends (before : List Directive) (d : Directive) : GraphError → Prop
  | unknown (h : ∀ k : Key, k.name ≠ d.key) : Offends before d (.unknownField d.key)
  | repeated {k : Key} {u : Directive} (hk : k.name = d.key) (hu : u ∈ before)
      (hkey : u.key = d.key) : Offends before d (.duplicateKey d.key)
  | value {k : Key} {e : GraphError} (hk : k.name = d.key) (hfresh : ∀ u ∈ before, u.key ≠ d.key)
      (h : Setting.read k d.value = .error e) : Offends before d e

theorem reads_iff : Reads d s ↔ s.key.name = d.key ∧ s.key.kind.Converts d.value s.toValue := by
  constructor
  · rintro ⟨hnamed, hread⟩
    exact ⟨Key.named?_eq_some_iff.mp hnamed, (Setting.read_eq_ok_iff.mp hread).2⟩
  · rintro ⟨hname, hconverts⟩
    exact ⟨Key.named?_eq_some_iff.mpr hname, Setting.read_eq_ok_iff.mpr ⟨rfl, hconverts⟩⟩

theorem names_of_reads {l : List Setting} (h : List.Forall₂ Reads ds l) :
    (l.map Setting.key).map Key.name = ds.map Directive.key := by
  induction h with
  | nil => rfl
  | cons hs _ ih =>
    have hname := (reads_iff.mp hs).1
    rw [List.map_cons, List.map_cons, List.map_cons, ih, hname]

theorem mem_keys_of_reads {l : List Setting} {k : Key} (h : List.Forall₂ Reads ds l) :
    k ∈ l.map Setting.key ↔ ∃ u ∈ ds, u.key = k.name := by
  have hinjective : Function.Injective Key.name := fun _ _ => Key.name_injective
  rw [← List.mem_map, ← names_of_reads h, List.mem_map_of_injective hinjective]

theorem mem_keys_iff {o : Overrides} {k : Key}
    (h : ds.foldlM add empty = .ok o) : k ∈ o.keys ↔ ∃ u ∈ ds, u.key = k.name := by
  obtain ⟨l, hreads, hentries⟩ := foldlM_add_eq_ok_iff.mp h
  rw [← mem_keys_of_reads hreads, keys, hentries]
  rfl

theorem add_eq_error_iff {before : List Directive} {o : Overrides}
    (h : before.foldlM add empty = .ok o) : o.add d = .error e ↔ d.Offends before e := by
  rw [add]
  constructor
  · intro hadd
    split at hadd
    · next hnone =>
      cases hadd
      refine .unknown fun k hk => ?_
      rw [Key.named?_eq_some_iff.mpr hk] at hnone
      cases hnone
    · next k hk =>
      have hname := Key.named?_eq_some_iff.mp hk
      split at hadd
      · next hmem =>
        cases hadd
        obtain ⟨u, hu, hkey⟩ := (mem_keys_iff h).mp hmem
        exact .repeated hname hu (hkey.trans hname)
      · next hfresh =>
        refine .value hname (fun u hu hkey => hfresh ?_) (map_eq_error_iff.mp hadd)
        exact (mem_keys_iff h).mpr ⟨u, hu, hkey.trans hname.symm⟩
  · intro hoffends
    cases hoffends with
    | unknown hnone =>
      have hnamed : Key.named? d.key = none := by
        rw [Option.eq_none_iff_forall_ne_some]
        intro k hk
        exact hnone k (Key.named?_eq_some_iff.mp hk)
      simp only [hnamed]
    | @repeated k u hk hu hkey =>
      have hmem : k ∈ o.keys := (mem_keys_iff h).mpr ⟨u, hu, hkey.trans hk.symm⟩
      simp only [Key.named?_eq_some_iff.mpr hk, if_pos hmem]
    | @value k _ hk hfresh hread =>
      have hmem : k ∉ o.keys := by
        intro hmem
        obtain ⟨u, hu, hkey⟩ := (mem_keys_iff h).mp hmem
        exact hfresh u hu (hkey.trans hk)
      simp only [Key.named?_eq_some_iff.mpr hk, if_neg hmem, hread]
      rfl

/-- The directive of a text: the key before the first equals sign and the value after it, both
trimmed, or the key alone. -/
inductive Directive.Spells : Text → Directive → Prop
  | assigned {a b : Text} (ha : '=' ∉ a) :
      Spells (a ++ '=' :: b) ⟨Text.trim a, some (Text.trim b)⟩
  | bare {t : Text} (ht : '=' ∉ t) : Spells t ⟨Text.trim t, none⟩

/-- Directives in which every key is known, no key comes twice, and every value converts. -/
structure Grammatical (ds : List Directive) : Prop where
  known : ∀ d ∈ ds, ∃ k : Key, k.name = d.key
  distinct : (ds.map Directive.key).Nodup
  converts : ∀ d ∈ ds, ∀ k : Key, k.name = d.key → ∃ v, k.kind.Converts d.value v

/-- The entry of a record that a directive makes: the value has the type of the key. -/
structure Directive.Sets (d : Directive) (entry : Text × Value) : Prop where
  key_eq : entry.1 = d.key
  value : ∃ k : Key, k.name = d.key ∧ k.kind.Converts d.value entry.2 ∧ k.kind.Admits entry.2

theorem Directive.spells_ofText (t : Text) : Spells t (ofText t) := by
  cases hbreak : Text.breakAt? '=' t with
  | none =>
    have ht := Text.breakAt?_eq_none_iff.mp hbreak
    rw [ofText_bare ht]
    exact .bare ht
  | some cut =>
    obtain ⟨heq, ha⟩ := Text.breakAt?_eq_some (a := cut.1) (b := cut.2) hbreak
    rw [heq, ofText_assigned _ ha]
    exact .assigned ha

theorem exists_spells (segment : Text) :
    ∃ pieces, Text.BetweenRuns isDelimiter pieces segment ∧
      List.Forall₂ Directive.Spells ((pieces.map Text.trim).filter (!·.isEmpty))
        (directives segment) := by
  obtain ⟨pieces, hpieces⟩ := Text.exists_betweenRuns isDelimiter segment
  refine ⟨pieces, hpieces, ?_⟩
  rw [directives, hpieces.parts_eq, List.forall₂_map_right_iff, List.forall₂_same]
  exact fun t _ => Directive.spells_ofText t

theorem reads_iff_sets : Reads d s ↔ d.Sets (s.key.name, s.toValue) := by
  rw [reads_iff]
  constructor
  · rintro ⟨hname, hconverts⟩
    exact ⟨hname, s.key, hname, hconverts, hconverts.admits⟩
  · rintro ⟨hname, k, hk, hconverts, -⟩
    obtain rfl := Key.name_injective (hname.trans hk.symm)
    exact ⟨hname, hconverts⟩

theorem Grammatical.exists_reads (h : Grammatical ds) (hd : d ∈ ds) : ∃ s, Reads d s := by
  obtain ⟨k, hk⟩ := h.known d hd
  obtain ⟨v, hv⟩ := h.converts d hd k hk
  obtain ⟨s, hs⟩ := Setting.exists_ofValue hv.admits
  obtain ⟨rfl, rfl⟩ := Setting.ofValue_eq_ok_iff.mp hs
  exact ⟨s, reads_iff.mpr ⟨hk, hv⟩⟩

theorem grammatical_of_reads {l : List Setting} (h : List.Forall₂ Reads ds l)
    (hl : (l.map Setting.key).Nodup) : Grammatical ds := by
  have hexists : ∀ d ∈ ds, ∃ s, Reads d s := by
    intro d hd
    obtain ⟨s, -, hs⟩ := exists_of_forall₂ h.flip hd
    exact ⟨s, hs⟩
  refine ⟨?_, ?_, ?_⟩
  · intro d hd
    obtain ⟨s, hs⟩ := hexists d hd
    exact ⟨s.key, (reads_iff.mp hs).1⟩
  · rw [← names_of_reads h]
    exact List.Nodup.map (fun _ _ => Key.name_injective) hl
  · intro d hd k hk
    obtain ⟨s, hs⟩ := hexists d hd
    obtain ⟨hname, hconverts⟩ := reads_iff.mp hs
    obtain rfl := Key.name_injective (hk.trans hname.symm)
    exact ⟨_, hconverts⟩

theorem foldlM_add_isOk_iff : (∃ o, ds.foldlM add empty = .ok o) ↔ Grammatical ds := by
  constructor
  · rintro ⟨o, ho⟩
    obtain ⟨l, hreads, hentries⟩ := foldlM_add_eq_ok_iff.mp ho
    have hdistinct := o.distinct
    rw [hentries] at hdistinct
    exact grammatical_of_reads hreads hdistinct
  · intro h
    obtain ⟨l, hl⟩ := exists_forall₂ fun d hd => h.exists_reads hd
    have hdistinct := h.distinct
    rw [← names_of_reads hl] at hdistinct
    exact ⟨⟨l, hdistinct.of_map⟩, foldlM_add_eq_ok_iff.mpr ⟨l, hl, rfl⟩⟩

theorem parse_eq_ok_iff_sets {o : Overrides} :
    parse (some segment) = .ok o ↔
      List.Forall₂ Directive.Sets (directives segment) (toRecord o.entries) := by
  rw [parse_eq_ok_iff, toRecord, List.forall₂_map_right_iff]
  exact ⟨List.Forall₂.imp fun _ _ => reads_iff_sets.mp,
    List.Forall₂.imp fun _ _ => reads_iff_sets.mpr⟩

theorem parse_eq_error_iff :
    parse (some segment) = .error e ↔ ∃ before d after,
      directives segment = before ++ d :: after ∧ Grammatical before ∧ d.Offends before e := by
  rw [parse, ofDirectives, foldlM_eq_error_iff]
  constructor
  · rintro ⟨before, d, after, o, hds, ho, hd⟩
    exact ⟨before, d, after, hds, foldlM_add_isOk_iff.mp ⟨o, ho⟩, (add_eq_error_iff ho).mp hd⟩
  · rintro ⟨before, d, after, hds, hbefore, hd⟩
    obtain ⟨o, ho⟩ := foldlM_add_isOk_iff.mpr hbefore
    exact ⟨before, d, after, o, hds, ho, (add_eq_error_iff ho).mpr hd⟩

/-- A settings segment is accepted exactly when its directives, taken from the pieces between runs
of delimiters, keep to the grammar. The record has an entry for each, in order, with the value that
its text converts to. A segment is refused for the first directive that cannot follow the ones
before it: for its key if that is unknown, else for its being there already, else for its value. -/
theorem parse_grammatical (segment : Text) :
    (∃ pieces, Text.BetweenRuns isDelimiter pieces segment ∧
      List.Forall₂ Directive.Spells ((pieces.map Text.trim).filter (!·.isEmpty))
        (directives segment)) ∧
    ((∃ o, parse (some segment) = .ok o) ↔ Grammatical (directives segment)) ∧
    (∀ o, parse (some segment) = .ok o ↔
      List.Forall₂ Directive.Sets (directives segment) (toRecord o.entries)) ∧
    (∀ e, parse (some segment) = .error e ↔ ∃ before d after,
      directives segment = before ++ d :: after ∧ Grammatical before ∧ d.Offends before e) ∧
    ∀ (k : Key) value e, Setting.read k value = .error e ↔ k.kind.Refuses k.name value e :=
  ⟨exists_spells segment, foldlM_add_isOk_iff, fun _ => parse_eq_ok_iff_sets,
    fun _ => parse_eq_error_iff, fun _ _ _ => Setting.read_eq_error_iff⟩

/-- Of three directives out of place the first is reported, and not for its value. -/
example : parse (some "\r\n;grid ;; left = 1e3\ngrid=maybe;Left;top") =
    .error (.duplicateKey "grid") := by decide +kernel

end GraphBlock.Overrides
