import GraphBlock.Proofs.Setting.Grammar
import GraphBlock.Proofs.Setting.Lookup
import GraphBlock.Proofs.Source.Frame
import GraphBlock.Proofs.Source.Reread
import GraphBlock.Proofs.Text.Layout
import Mathlib.Data.List.Pairwise

/-!
The directives that are found and those that are read. Reading trims any blanks from a key and a
value, while the rewriter looks for a key and for the value behind it over spaces and tabs alone.
Where no other blank stands in front of them, what is read is found, and a value put in its place is
read in turn.
-/

namespace GraphBlock

namespace Overrides

theorem directives_around {a b : Text} (ha : ∀ d ∈ a.getLast?, isDelimiter d = true)
    (hb : ∀ d ∈ b.head?, isDelimiter d = true) (t : Text) :
    directives (a ++ t ++ b) = directives a ++ directives t ++ directives b := by
  rw [directives, Text.parts_around ha hb, List.map_append, List.map_append]
  rfl

theorem directives_piece {p : Text} (h : ∀ c ∈ p, isDelimiter c = false) :
    directives p = (Directive.ofPiece? p).toList := by
  rw [directives_eq, Pieces.cut_eq_last h, ← Pieces.directives_last]
  rfl

theorem directives_append {p : Text} {c : Char} (t : Text) (h : ∀ c ∈ p, isDelimiter c = false)
    (hc : c ∈ p) (hmark : Text.isBlank c = false) :
    directives (p ++ t) = Directive.ofText (p ++ t.takeWhile (!isDelimiter ·)) ::
      directives (t.dropWhile (!isDelimiter ·)) := by
  have hnot : ∀ x ∈ p ++ t.takeWhile (!isDelimiter ·), isDelimiter x = false := by
    refine List.forall_mem_append.mpr ⟨h, fun x hx => ?_⟩
    simpa using List.mem_takeWhile_imp hx
  have hfirst : directives (p ++ t.takeWhile (!isDelimiter ·)) =
      [Directive.ofText (p ++ t.takeWhile (!isDelimiter ·))] := by
    rw [directives_piece hnot, Directive.ofPiece?_of_mem (List.mem_append_left _ hc) hmark]
    rfl
  have hb : ∀ d ∈ (t.dropWhile (!isDelimiter ·)).head?, isDelimiter d = true := by
    intro d hd
    simpa using Text.head?_of_dropWhile hd
  have haround := directives_around (a := []) (by simp) hb (p ++ t.takeWhile (!isDelimiter ·))
  rw [List.nil_append, List.append_assoc, List.takeWhile_append_dropWhile, hfirst] at haround
  exact haround

theorem directives_eq_nil_iff {t : Text} : directives t = [] ↔ Text.parts isDelimiter t = [] :=
  List.map_eq_nil_iff

end Overrides

namespace Source

open Overrides

variable {k : Key} {p q v t front rest x : Text} {o : Overrides} {s old : Setting}
  {f : Text → Option Text}

/-- Between the equals sign of a piece and the value behind it there are no blanks but gaps. -/
def Reaches (p : Text) : Prop :=
  ∀ cut ∈ Text.breakAt? '=' p,
    Text.trim cut.2 = [] ∨ ∀ c ∈ cut.2.takeWhile Text.isBlank, isGap c = true

def Opens (v : Text) : Prop := ∀ c ∈ v.takeWhile Text.isBlank, isDelimiter c = false

/-- Around a key of a segment there are no blanks but gaps. -/
def KeySpaced (k : Key) (t : Text) : Prop :=
  ∀ p ∈ (Pieces.cut isDelimiter t).toList, (Directive.ofText p).key = k.name → Names k p

/-- In front of the value of a key in a segment there are no blanks but gaps. -/
def ValueSpaced (k : Key) (t : Text) : Prop :=
  ∀ p ∈ (Pieces.cut isDelimiter t).toList, (Directive.ofText p).key = k.name → Reaches p

def IsFront (k : Key) (front : Text) : Prop :=
  ∃ a b c, (∀ x ∈ a, isGap x = true) ∧ (∀ x ∈ b, isGap x = true) ∧ (∀ x ∈ c, isGap x = true) ∧
    front = a ++ k.name ++ b ++ '=' :: c

theorem not_delimiter_of_isGap {c : Char} (h : isGap c = true) : isDelimiter c = false := by
  simp only [isGap, Bool.or_eq_true, beq_iff_eq] at h
  rcases h with rfl | rfl <;> rfl

theorem IsFront.not_delimiter (h : IsFront k front) : ∀ c ∈ front, isDelimiter c = false := by
  obtain ⟨a, b, c, ha, hb, hc, rfl⟩ := h
  simp only [List.forall_mem_append, List.forall_mem_cons]
  exact ⟨⟨⟨fun x hx => not_delimiter_of_isGap (ha x hx), k.name_not_delimiter⟩,
    fun x hx => not_delimiter_of_isGap (hb x hx)⟩, rfl,
    fun x hx => not_delimiter_of_isGap (hc x hx)⟩

theorem IsFront.ofText_append (h : IsFront k front) (x : Text) :
    Directive.ofText (front ++ x) = ⟨k.name, some (Text.trim x)⟩ := by
  obtain ⟨a, b, c, ha, hb, hc, rfl⟩ := h
  have htrim : Text.trim (c ++ x) = Text.trim x := Text.trimBy_append_left x (isBlank_of_gaps hc)
  rw [List.append_assoc, List.cons_append, ofText_assigned _ ha hb, htrim]

theorem reads_name_iff {value : Option Text} :
    Reads ⟨k.name, value⟩ s ↔ Setting.read k value = .ok s := by
  constructor
  · intro h
    have hread := h.read
    rwa [key_eq_of_named? h.named] at hread
  · intro h
    obtain rfl := Setting.key_of_read h
    exact ⟨Key.named?_eq_some_iff.mpr rfl, h⟩

theorem IsFront.reads_iff (h : IsFront k front) (x : Text) :
    (∃ d, directives (front ++ x) = [d] ∧ Reads d s) ↔
      Setting.read k (some (Text.trim (x.takeWhile (!isDelimiter ·)))) = .ok s ∧
        ∀ c ∈ x.dropWhile (!isDelimiter ·), isDelimiter c = true ∨ Text.isBlank c = true := by
  have hequals : '=' ∈ front := by
    obtain ⟨a, b, c, -, -, -, rfl⟩ := h
    simp
  rw [directives_append x h.not_delimiter hequals (by decide), h.ofText_append,
    ← Text.parts_eq_nil_iff, ← directives_eq_nil_iff]
  constructor
  · rintro ⟨d, hd, hs⟩
    obtain ⟨rfl, hnil⟩ := List.cons.inj hd
    exact ⟨reads_name_iff.mp hs, hnil⟩
  · rintro ⟨hread, hnil⟩
    exact ⟨_, by rw [hnil], reads_name_iff.mpr hread⟩

theorem read_run_iff {a w b : Text} (ha : ∀ c ∈ a, Text.isBlank c = true) (hw : w ≠ [])
    (hink : Text.Ink w) (hread : Setting.read k (some w) = .ok s)
    (hb : ∀ c ∈ b.head?, Text.isBlank c = true) :
    Setting.read k (some (Text.trim (a ++ w ++ b))) = .ok s ↔ ∀ c ∈ b, Text.isBlank c = true := by
  constructor
  · intro h
    have htrim : Text.trim (a ++ (w ++ b)) = Text.trim (w ++ b) := Text.trimBy_append_left _ ha
    rw [List.append_assoc, htrim] at h
    exact Text.forall_of_trimBy_append hw hink hb
      (Setting.ink_of_read (Text.trimBy_trimBy _ _) h)
  · intro hblank
    have hself : Text.trimBy Text.isBlank w = w := Text.trimBy_eq_self_of_forall hink
    rwa [Text.trim, Text.trimBy_pad ha hblank hself]

theorem trim_takeWhile_of_blank {a : Text} (t : Text) (ha : ∀ c ∈ a, Text.isBlank c = true)
    (hdelimiter : ¬ ∀ c ∈ a, isDelimiter c = false) :
    Text.trim ((a ++ t).takeWhile (!isDelimiter ·)) = [] := by
  have hshort : (a.takeWhile (!isDelimiter ·)).length ≠ a.length := by
    intro hlength
    apply hdelimiter
    intro c hc
    rw [← (List.takeWhile_prefix _).eq_of_length hlength] at hc
    simpa using List.mem_takeWhile_imp hc
  rw [List.takeWhile_append, if_neg hshort]
  exact Text.trimBy_eq_nil_iff.mpr fun c hc => ha c ((List.takeWhile_prefix _).subset hc)

theorem forall_blank_iff (t : Text) :
    ((∀ c ∈ t.takeWhile (!isDelimiter ·), Text.isBlank c = true) ∧
      ∀ c ∈ t.dropWhile (!isDelimiter ·), isDelimiter c = true ∨ Text.isBlank c = true) ↔
      ∀ c ∈ t, isDelimiter c = true ∨ Text.isBlank c = true := by
  conv_rhs => rw [← List.takeWhile_append_dropWhile (p := (!isDelimiter ·)) (l := t)]
  rw [List.forall_mem_append]
  refine and_congr_left fun _ => forall₂_congr fun c hc => ?_
  have hnot : isDelimiter c = false := by simpa using List.mem_takeWhile_imp hc
  rw [hnot, or_iff_right Bool.false_ne_true]

theorem opens_of_ink (h : ∀ c ∈ v, Text.isBlank c = false) : Opens v := by
  intro c hc
  have hblank := List.mem_takeWhile_imp hc
  rw [h c ((List.takeWhile_prefix _).subset hc)] at hblank
  cases hblank

theorem opens_pad_iff {a w b : Text} (ha : ∀ c ∈ a, Text.isBlank c = true) (hw : w ≠ [])
    (hink : Text.Ink w) : Opens (a ++ w ++ b) ↔ ∀ c ∈ a, isDelimiter c = false := by
  have hmark : ∀ c ∈ (w ++ b).head?, Text.isBlank c = false := by
    rw [List.head?_append_of_ne_nil _ hw]
    exact fun c hc => hink c (List.mem_of_mem_head? hc)
  rw [Opens, List.append_assoc, Text.takeWhile_run ha hmark]

theorem head?_takeWhile_of_blank {b : Text} (hb : ∀ c ∈ b, Text.isBlank c = true)
    (hhead : ∀ c ∈ rest.head?, Text.isBlank c = true) :
    ∀ c ∈ ((b ++ rest).takeWhile (!isDelimiter ·)).head?, Text.isBlank c = true := by
  intro c hc
  rw [List.head?_takeWhile, Option.mem_def, Option.filter_eq_some_iff] at hc
  cases b with
  | nil => exact hhead c hc.1
  | cons d b =>
    obtain rfl : d = c := Option.some.inj hc.1
    exact hb d List.mem_cons_self

/-- A value in front of the rest of a piece is read as it is read alone, if what follows it is blank
and no delimiter stands before it. -/
theorem read_value_iff (hv : Setting.read k (some v) = .ok s) (hne : v ≠ [])
    (hhead : ∀ c ∈ rest.head?, Text.isBlank c = true) (hrest : ∀ c ∈ rest, isDelimiter c = false) :
    (Setting.read k (some (Text.trim ((v ++ rest).takeWhile (!isDelimiter ·)))) = .ok s ∧
        ∀ c ∈ (v ++ rest).dropWhile (!isDelimiter ·), isDelimiter c = true ∨
          Text.isBlank c = true) ↔
      Opens v ∧ ∀ c ∈ rest, Text.isBlank c = true := by
  obtain ⟨a, w, b, hpad, ha, hb, hw, hink, hfree, hread⟩ := Setting.exists_run hv hne
  have hopens : Opens v ↔ ∀ c ∈ a, isDelimiter c = false := by
    rw [hpad, opens_pad_iff ha hw hink]
  have htext : v ++ rest = a ++ w ++ (b ++ rest) := by
    rw [hpad, List.append_assoc]
  -- a delimiter among the blanks in front cuts the value off, and nothing is left to be read
  by_cases hdelimiter : ∀ c ∈ a, isDelimiter c = false
  · have hfront : ∀ c ∈ a ++ w, (!isDelimiter c) = true := by
      intro c hc
      rcases List.mem_append.mp hc with hc | hc
      · rw [hdelimiter c hc]; rfl
      · rw [hfree c hc]; rfl
    have hbehind := head?_takeWhile_of_blank hb hhead
    rw [htext, List.takeWhile_append_of_pos hfront, List.dropWhile_append_of_pos hfront,
      read_run_iff ha hw hink hread hbehind, forall_blank_iff, List.forall_mem_append, hopens,
      and_iff_right hdelimiter, and_iff_right fun c hc => Or.inr (hb c hc)]
    refine forall₂_congr fun c hc => ?_
    rw [hrest c hc, or_iff_right Bool.false_ne_true]
  · rw [htext, List.append_assoc, trim_takeWhile_of_blank _ ha hdelimiter, hopens]
    refine iff_of_false (fun h => ?_) fun h => hdelimiter h.1
    apply hdelimiter
    intro c hc
    have hblank := Setting.free_of_read_flag Text.foreign_isBlank (.inr rfl) h.1 hv c
      (by rw [hpad]; simp [hc])
    rw [ha c hc] at hblank
    cases hblank

theorem IsFront.reads_value_iff (h : IsFront k front) (hv : Setting.read k (some v) = .ok s)
    (hhead : ∀ c ∈ rest.head?, Text.isBlank c = true) (hrest : ∀ c ∈ rest, isDelimiter c = false) :
    (∃ d, directives (front ++ (v ++ rest)) = [d] ∧ Reads d s) ↔
      (∀ c ∈ rest, Text.isBlank c = true) ∧ Opens v ∨
        v = [] ∧ Setting.read k (some (Text.trim rest)) = .ok s := by
  rw [h.reads_iff]
  by_cases hnil : v = []
  · subst hnil
    have hkept : ∀ c ∈ rest, (!isDelimiter c) = true := fun c hc => by rw [hrest c hc]; rfl
    have hblank : (∀ c ∈ rest, Text.isBlank c = true) →
        Setting.read k (some (Text.trim rest)) = .ok s := by
      intro hblank
      rwa [Text.trim, Text.trimBy_eq_nil_iff.mpr hblank]
    rw [List.nil_append, List.takeWhile_eq_self_iff.mpr hkept, List.dropWhile_eq_nil_iff.mpr hkept,
      and_iff_left (by simp), and_iff_right rfl, or_iff_right_of_imp fun h => hblank h.1]
  · rw [read_value_iff hv hnil hhead hrest, and_comm, or_iff_left fun h => hnil h.1]

theorem breakAt?_front {a b : Text} (x : Text) (ha : ∀ c ∈ a, isGap c = true)
    (hb : ∀ c ∈ b, isGap c = true) :
    Text.breakAt? '=' (a ++ k.name ++ b ++ '=' :: x) = some (a ++ k.name ++ b, x) :=
  Text.breakAt?_append x (equals_not_mem_name_pad (isBlank_of_gaps ha) (isBlank_of_gaps hb))

theorem Assigned.isBlank_rest {value : Text} (h : Assigned k.name value p front rest)
    (hs : Reads (Directive.ofText p) old) (hne : value ≠ []) :
    ∀ c ∈ rest, Text.isBlank c = true := by
  have hfront : IsFront k front := h.front_eq
  rw [h.piece_eq, List.append_assoc, hfront.ofText_append, reads_name_iff] at hs
  exact Text.forall_of_trimBy_append hne h.not_blank h.head?_rest
    (Setting.ink_of_read (Text.trimBy_trimBy _ _) hs)

theorem IsFront.reaches_iff (h : IsFront k front) (x : Text) :
    Reaches (front ++ x) ↔
      Text.trim x = [] ∨ ∀ c ∈ x.takeWhile Text.isBlank, isGap c = true := by
  obtain ⟨a, b, c, ha, hb, hc, rfl⟩ := h
  have htrim : Text.trim (c ++ x) = Text.trim x := Text.trimBy_append_left x (isBlank_of_gaps hc)
  have hreaches : Reaches (a ++ k.name ++ b ++ '=' :: (c ++ x)) ↔ Text.trim (c ++ x) = [] ∨
      ∀ y ∈ (c ++ x).takeWhile Text.isBlank, isGap y = true := by
    rw [Reaches, breakAt?_front _ ha hb]
    simp
  rw [List.append_assoc, List.cons_append, hreaches, htrim,
    List.takeWhile_append_of_pos (isBlank_of_gaps hc), List.forall_mem_append, and_iff_right hc]

/-- The value of an accepted piece is where it is looked for if only blanks are left behind it. -/
theorem Assigned.reaches_iff {value : Text} (h : Assigned k.name value p front rest)
    (hs : Reads (Directive.ofText p) old) :
    Reaches p ↔ ∀ c ∈ rest, Text.isBlank c = true := by
  have hfront : IsFront k front := h.front_eq
  have hreaches : Reaches p ↔ Text.trim (value ++ rest) = [] ∨
      ∀ c ∈ (value ++ rest).takeWhile Text.isBlank, isGap c = true := by
    rw [← hfront.reaches_iff, ← List.append_assoc, ← h.piece_eq]
  rw [hreaches]
  cases hvalue : value with
  | nil =>
    rw [List.nil_append]
    constructor
    · rintro (htrim | hgaps)
      · exact Text.trimBy_eq_nil_iff.mp htrim
      · cases hrest : rest with
        | nil => simp
        | cons d r =>
          have hblank := h.head?_rest d (by rw [hrest]; rfl)
          have hnot := h.head?_old d (by rw [hvalue, hrest]; rfl)
          rw [hgaps d (by rw [hrest, List.takeWhile_cons_of_pos hblank]; exact List.mem_cons_self)]
            at hnot
          cases hnot
    · exact fun hblank => .inl (Text.trimBy_eq_nil_iff.mpr hblank)
  | cons d r =>
    have hne : value ≠ [] := by rw [hvalue]; exact List.cons_ne_nil d r
    have hmark : Text.isBlank d = false := h.not_blank d (by rw [hvalue]; exact List.mem_cons_self)
    rw [List.cons_append, List.takeWhile_cons_of_neg (by rw [hmark]; exact Bool.false_ne_true)]
    exact iff_of_true (.inr (by simp)) (h.isBlank_rest hs hne)

theorem IsAssignment.reads_iff (hf : IsAssignment k v f) (hpq : f p = some q)
    (hp : ∀ c ∈ p, isDelimiter c = false) (hold : Reads (Directive.ofText p) old)
    (hv : Setting.read k (some v) = .ok s) :
    (∃ d, directives q = [d] ∧ Reads d s) ↔ Reaches p ∧ Opens v ∨ v = [] ∧ old = s := by
  cases hf with
  | assign =>
    obtain ⟨front, value, rest, h, rfl⟩ := assign?_eq_some_iff.mp hpq
    have hfront : IsFront k front := h.front_eq
    have hrest : ∀ c ∈ rest, isDelimiter c = false := by
      intro c hc
      exact hp c (by rw [h.piece_eq]; exact List.mem_append_right _ hc)
    rw [List.append_assoc, hfront.reads_value_iff hv h.head?_rest hrest, h.reaches_iff hold]
    refine or_congr_right' fun hnot => and_congr_right fun hnil => ?_
    -- an empty value takes the place of an empty one, and what was read stands behind it
    have hvalue : value = [] := by
      by_contra hne
      exact hnot ⟨h.isBlank_rest hold hne, opens_of_ink (by simp [hnil])⟩
    rw [h.piece_eq, List.append_assoc, hfront.ofText_append, reads_name_iff, hvalue,
      List.nil_append] at hold
    rw [hold, Except.ok.injEq]
  | bare =>
    obtain ⟨a, b, ha, hb, rfl, rfl⟩ := assignBare?_eq_some_iff.mp hpq
    have hequals : '=' ∉ a ++ k.name ++ b :=
      equals_not_mem_name_pad (isBlank_of_gaps ha) (isBlank_of_gaps hb)
    have hreaches : Reaches (a ++ k.name ++ b) := by
      intro cut hcut
      rw [Text.breakAt?_eq_none_iff.mpr hequals] at hcut
      cases hcut
    rw [ofText_bare ha hb, reads_name_iff] at hold
    have hopens : Opens v :=
      opens_of_ink (Setting.free_of_read_flag Text.foreign_isBlank (.inl rfl) hold hv)
    have hfront : IsFront k (a ++ k.name ++ ['=']) := ⟨a, [], [], ha, by simp, by simp, by simp⟩
    have hnew : a ++ k.name ++ '=' :: v ++ b = a ++ k.name ++ ['='] ++ (v ++ b) := by simp
    have hblank := isBlank_of_gaps hb
    rw [hnew, hfront.reads_value_iff hv (fun c hc => hblank c (List.mem_of_mem_head? hc))
      fun c hc => not_delimiter_of_isGap (hb c hc)]
    exact iff_of_true (.inl ⟨hblank, hopens⟩) (.inl ⟨hreaches, hopens⟩)

/-- A segment in which the directive of a setting is replaced is read with another setting of the
key exactly if what takes the place of that directive is. -/
theorem parse_around_iff {a b : Text} (ho : Overrides.parse (some (a ++ p ++ b)) = .ok o)
    (ha : ∀ d ∈ a.getLast?, isDelimiter d = true) (hb : ∀ d ∈ b.head?, isDelimiter d = true)
    (hp : directives p = [Directive.ofText p]) (hkey : (Directive.ofText p).key = s.key.name) :
    ∃ old, Reads (Directive.ofText p) old ∧ o.get? s.key = some old ∧
      (Overrides.parse (some (a ++ q ++ b)) = .ok (o.put s) ↔
        ∃ d, directives q = [d] ∧ Reads d s) := by
  rw [parse_eq_ok_iff, directives_around ha hb, hp, List.append_assoc] at ho
  obtain ⟨before, others, hentries, hbefore, hothers⟩ := exists_append_of_forall₂ ho
  rw [List.singleton_append, List.forall₂_cons_left_iff] at hothers
  obtain ⟨old, behind, hold, hbehind, rfl⟩ := hothers
  have hsame : old.key = s.key := by
    have hnamed := hold.named
    rw [hkey] at hnamed
    exact key_eq_of_named? hnamed
  have hfresh : s.key ∉ before.map Setting.key := by
    have hnodup := o.distinct
    rw [hentries, List.map_append, List.map_cons, List.nodup_append] at hnodup
    exact fun hmem => hnodup.2.2 _ hmem _ List.mem_cons_self hsame.symm
  have hput : (o.put s).entries = before ++ s :: behind := by
    change s.put o.entries = before ++ s :: behind
    rw [hentries]
    exact Setting.put_append_cons hsame hfresh
  refine ⟨old, hold, ?_, ?_⟩
  · exact get?_eq_some_iff.mpr ⟨by rw [hentries]; simp, hsame⟩
  · rw [parse_eq_ok_iff, directives_around ha hb, hput, List.append_assoc,
      forall₂_append_iff hbefore, forall₂_append_cons_iff hbehind]

theorem ofPiece?_of_key (hkey : (Directive.ofText p).key = k.name) :
    Directive.ofPiece? p = some (Directive.ofText p) := by
  have hne : Text.trim p ≠ [] := by
    intro hnil
    rw [← Directive.ofText_trim, hnil] at hkey
    exact k.name_ne_nil hkey.symm
  rw [Directive.ofPiece?, if_neg (by simpa using hne)]

theorem eq_of_key_ofText (ho : Overrides.parse (some t) = .ok o)
    (hp : p ∈ (Pieces.cut isDelimiter t).toList) (hq : q ∈ (Pieces.cut isDelimiter t).toList)
    (hpk : (Directive.ofText p).key = k.name) (hqk : (Directive.ofText q).key = k.name) :
    p = q := by
  have hdistinct : ((directives t).map Directive.key).Nodup := by
    rw [← names_of_reads (parse_eq_ok_iff.mp ho)]
    exact o.distinct.map fun _ _ => Key.name_injective
  rw [directives_eq, List.Nodup, List.pairwise_map, List.pairwise_filterMap] at hdistinct
  have : Std.Symm fun x y => ∀ d, Directive.ofPiece? x = some d →
      ∀ e, Directive.ofPiece? y = some e → d.key ≠ e.key :=
    ⟨fun x y h d hd e he => (h e he d hd).symm⟩
  by_contra hne
  exact hdistinct.forall hp hq hne _ (ofPiece?_of_key hpk) _ (ofPiece?_of_key hqk)
    (hpk.trans hqk.symm)

theorem mem_keys_iff_exists (ho : Overrides.parse (some t) = .ok o) :
    k ∈ o.keys ↔ ∃ p ∈ (Pieces.cut isDelimiter t).toList, (Directive.ofText p).key = k.name := by
  rw [keys, mem_keys_of_reads (parse_eq_ok_iff.mp ho), directives_eq]
  constructor
  · rintro ⟨d, hd, hkey⟩
    obtain ⟨p, hp, hpd⟩ := List.mem_filterMap.mp hd
    refine ⟨p, hp, ?_⟩
    rw [Directive.ofPiece?] at hpd
    split at hpd
    · cases hpd
    · rwa [Option.some.inj hpd]
  · rintro ⟨p, hp, hkey⟩
    exact ⟨_, List.mem_filterMap.mpr ⟨p, hp, ofPiece?_of_key hkey⟩, hkey⟩

theorem isSome_replaceDirective?_iff (ho : Overrides.parse (some t) = .ok o) :
    (replaceDirective? k.name v t).isSome = true ↔ k ∈ o.keys ∧ KeySpaced k t := by
  have hfound : (replaceDirective? k.name v t).isSome = true ↔
      ∃ p ∈ (Pieces.cut isDelimiter t).toList, Names k p := by
    have hmap : replaceDirective? k.name v t =
        ((Pieces.cut isDelimiter t).assignKey? k.name v).map Pieces.text := rfl
    rw [← assignKey?_ne_none_iff (v := v), Option.ne_none_iff_isSome, hmap, Option.isSome_map]
  rw [hfound, mem_keys_iff_exists ho]
  constructor
  · rintro ⟨p, hp, hnames⟩
    refine ⟨⟨p, hp, hnames.key_ofText⟩, fun q hq hqk => ?_⟩
    rwa [eq_of_key_ofText ho hq hp hqk hnames.key_ofText]
  · rintro ⟨⟨p, hp, hkey⟩, hspaced⟩
    exact ⟨p, hp, hspaced p hp hkey⟩

theorem parse_replaceDirective?_iff {new : Text} (ho : Overrides.parse (some t) = .ok o)
    (hs : Setting.read k (some v) = .ok s) (hnew : replaceDirective? k.name v t = some new) :
    Overrides.parse (some new) = .ok (o.put s) ↔
      ValueSpaced k t ∧ Opens v ∨ v = [] ∧ o.get? k = some s := by
  obtain rfl := Setting.key_of_read hs
  obtain ⟨qs, hqs, rfl⟩ := Option.map_eq_some_iff.mp hnew
  have hassignment : ∃ f, IsAssignment s.key v f ∧
      (Pieces.cut isDelimiter t).updateFirst? f = some qs := by
    rcases assignKey?_eq_some_iff.mp hqs with h | ⟨-, h⟩
    · exact ⟨_, .assign, h⟩
    · exact ⟨_, .bare, h⟩
  obtain ⟨f, hf, hupdate⟩ := hassignment
  have hproper := Pieces.proper_cut isDelimiter t
  obtain ⟨a, p, b, q, hpq, hp, htext, hqtext, ha, hb⟩ := Pieces.exists_around hproper hupdate
  rw [Pieces.text_cut] at htext
  have hkey := (hf.key_ofText hpq).1
  have hnot := hproper.not_delimiter hp
  have hdirective : directives p = [Directive.ofText p] := by
    rw [directives_piece hnot, ofPiece?_of_key hkey]
    rfl
  have hspaced : ValueSpaced s.key t ↔ Reaches p := by
    refine ⟨fun h => h p hp hkey, fun h q hq hqk => ?_⟩
    rwa [eq_of_key_ofText ho hq hp hqk hkey]
  rw [htext] at ho
  obtain ⟨old, hold, hget, hiff⟩ := parse_around_iff (q := q) ho ha hb hdirective hkey
  rw [hqtext, hiff, hf.reads_iff hpq hnot hold hs, hspaced, hget, Option.some.injEq]

theorem names_of_plain (ho : Overrides.parse (some t) = .ok o)
    (hp : p ∈ (Pieces.cut isDelimiter t).toList) (hplain : Plain p)
    (hkey : (Directive.ofText p).key = k.name) : Names k p := by
  have hmem : Directive.ofText p ∈ directives t := by
    rw [directives_eq]
    exact List.mem_filterMap.mpr ⟨p, hp, ofPiece?_of_key hkey⟩
  obtain ⟨s, -, hs⟩ := exists_of_forall₂ (parse_eq_ok_iff.mp ho).flip hmem
  have hs : Reads (Directive.ofText p) s := hs
  obtain rfl : s.key = k := key_eq_of_named? (hkey ▸ hs.named)
  rw [names_iff [], Option.ne_none_iff_isSome, Option.ne_none_iff_isSome]
  exact isSome_assign?_or [] hplain hs

theorem reaches_of_plain (hp : Plain p) : Reaches p := by
  intro cut hcut
  obtain ⟨hpiece, -⟩ := Text.breakAt?_eq_some (a := cut.1) (b := cut.2) hcut
  refine .inr fun c hc => hp c ?_ (List.mem_takeWhile_imp hc)
  rw [hpiece]
  exact List.mem_append_right _ (List.mem_cons_of_mem _ ((List.takeWhile_prefix _).subset hc))

/-- What is read under a key of an accepted segment is found where only gaps stand around the key,
and then another value takes its place, and no more, where also only gaps stand in front of the
value and no end of a directive stands in front of the new one. -/
theorem replaced_as_parsed (ho : Overrides.parse (some t) = .ok o)
    (hs : Setting.read k (some v) = .ok s) :
    ((replaceDirective? k.name v t).isSome = true ↔ k ∈ o.keys ∧ KeySpaced k t) ∧
    (∀ new, replaceDirective? k.name v t = some new →
      (Overrides.parse (some new) = .ok (o.put s) ↔
        ValueSpaced k t ∧ Opens v ∨ v = [] ∧ o.get? k = some s)) ∧
    (PlainSegment t → KeySpaced k t ∧ ValueSpaced k t) := by
  refine ⟨isSome_replaceDirective?_iff ho, fun new => parse_replaceDirective?_iff ho hs, ?_⟩
  intro ht
  have hplain := plain_cut ht
  exact ⟨fun p hp => names_of_plain ho hp (hplain p hp),
    fun p hp _ => reaches_of_plain (hplain p hp)⟩

theorem replaced_as_parsed_blanks :
    ∃ o, Overrides.parse (some "degreeMode\t= radians;\u00a0grid;lock=\u00a0true") = .ok o ∧
      Overrides.parse (some "degreeMode\t= degrees;\u00a0grid;lock=\u00a0true") =
        .ok (o.put (.degreeMode .degrees)) ∧
      (.flag .grid ∈ o.keys ∧
        ¬ KeySpaced (.flag .grid) "degreeMode\t= radians;\u00a0grid;lock=\u00a0true") ∧
      Overrides.parse (some "degreeMode\t= radians;\u00a0grid;lock=false\u00a0true") ≠
        .ok (o.put (.flag .lock false)) ∧
      KeySpaced .degreeMode " degreeMode\t=radians\r\n" ∧
      ValueSpaced .degreeMode " degreeMode\t=radians\r\n" := by
  have ho : Overrides.parse (some "degreeMode\t= radians;\u00a0grid;lock=\u00a0true") =
      .ok ⟨[.degreeMode .radians, .flag .grid true, .flag .lock true], by decide⟩ := by decide
  obtain ⟨-, hmode, -⟩ := replaced_as_parsed (k := .degreeMode) (v := "degrees")
    (s := .degreeMode .degrees) ho (by decide)
  obtain ⟨hgrid, -, -⟩ := replaced_as_parsed (k := .flag .grid) (v := "false")
    (s := .flag .grid false) ho (by decide)
  obtain ⟨-, hlock, -⟩ := replaced_as_parsed (k := .flag .lock) (v := "false")
    (s := .flag .lock false) ho (by decide)
  obtain ⟨-, -, hplain⟩ := replaced_as_parsed (k := .degreeMode) (v := "degrees")
    (s := .degreeMode .degrees) (t := " degreeMode\t=radians\r\n")
    (o := ⟨[.degreeMode .radians], by decide⟩) (by decide) (by decide)
  refine ⟨_, ho, ?_, ⟨by decide, ?_⟩, ?_, hplain (by decide)⟩
  · refine (hmode _ (by decide)).mpr (.inl ⟨?_, by unfold Opens; decide⟩)
    unfold ValueSpaced Reaches
    decide
  · intro hspaced
    cases hgrid.mpr ⟨by decide, hspaced⟩
  · rw [ne_eq, hlock _ (by decide)]
    rintro (⟨hspaced, -⟩ | ⟨hnil, -⟩)
    · revert hspaced
      unfold ValueSpaced Reaches
      decide
    · cases hnil

/-- What is read need not be found: the key of an edge behind a no-break space is not, and a value
behind one is not taken away, so that the segment is refused with another value. -/
theorem not_replaced_as_parsed :
    (∃ o s, Overrides.parse (some "\u00a0left=5") = .ok o ∧
      Setting.read (.edge .left) (some "3") = .ok s ∧ .edge .left ∈ o.keys ∧
      replaceDirective? "left" "3" "\u00a0left=5" = none) ∧
    ∃ o s, Overrides.parse (some "left=\u00a05") = .ok o ∧
      Setting.read (.edge .left) (some "3") = .ok s ∧
      replaceDirective? "left" "3" "left=\u00a05" = some "left=3\u00a05".toList ∧
      (Overrides.parse (some "left=3\u00a05")).isOk = false := by
  have hvalue : Setting.read (.edge .left) (some "3") = .ok (.edge .left (.float (.ofInt 3))) := by
    decide +kernel
  have hkey : Overrides.parse (some "\u00a0left=5") =
      .ok ⟨[.edge .left (.float (.ofInt 5))], by decide⟩ := by decide +kernel
  have hbehind : Overrides.parse (some "left=\u00a05") =
      .ok ⟨[.edge .left (.float (.ofInt 5))], by decide⟩ := by decide +kernel
  exact ⟨⟨_, _, hkey, hvalue, by decide, by decide⟩, _, _, hbehind, hvalue, by decide,
    by decide +kernel⟩

end Source

end GraphBlock
