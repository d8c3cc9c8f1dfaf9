import GraphBlock.Proofs.Setting.Agreement
import GraphBlock.Proofs.Setting.Directives
import GraphBlock.Proofs.Setting.Reading
import GraphBlock.Proofs.Setting.Spelling
import GraphBlock.Proofs.Source.Rewrite

namespace GraphBlock

namespace Source

open Overrides

variable {k : Key} {p q v : Text} {d : Directive} {s : Setting}

/-- A text whose blanks may all stand between the parts of a directive. -/
def Plain (p : Text) : Prop := ∀ c ∈ p, Text.isBlank c = true → isGap c = true

theorem isBlank_of_gaps {a : Text} (ha : ∀ c ∈ a, isGap c = true) :
    ∀ c ∈ a, Text.isBlank c = true := fun c hc => isBlank_of_isGap (ha c hc)

theorem trim_name_pad {a b : Text} (ha : ∀ c ∈ a, Text.isBlank c = true)
    (hb : ∀ c ∈ b, Text.isBlank c = true) : Text.trim (a ++ k.name ++ b) = k.name := by
  apply Text.trimBy_pad ha hb
  exact Text.trimBy_eq_self_of_forall k.name_not_blank

theorem equals_not_mem_name_pad {a b : Text} (ha : ∀ c ∈ a, Text.isBlank c = true)
    (hb : ∀ c ∈ b, Text.isBlank c = true) : '=' ∉ a ++ k.name ++ b := by
  have hequals : Text.isBlank '=' = false := by decide
  simp [Text.not_mem_of_isBlank hequals ha, k.equals_not_mem_name,
    Text.not_mem_of_isBlank hequals hb]

theorem ofPiece?_of_afterKey? (h : (afterKey? k.name p).isSome) :
    Directive.ofPiece? p = some (Directive.ofText p) := by
  obtain ⟨x, hx⟩ := Option.isSome_iff_exists.mp h
  obtain ⟨a, -, -, heq⟩ := afterKey?_eq_some_iff.mp hx
  obtain ⟨c, r, hname⟩ := List.exists_cons_of_ne_nil k.name_ne_nil
  apply Directive.ofPiece?_of_mem (c := c)
  · rw [heq, hname]
    simp
  · exact k.name_not_blank c (by rw [hname]; exact List.mem_cons_self)

theorem ofText_assigned {a b : Text} (x : Text) (ha : ∀ c ∈ a, isGap c = true)
    (hb : ∀ c ∈ b, isGap c = true) :
    Directive.ofText (a ++ k.name ++ b ++ '=' :: x) = ⟨k.name, some (Text.trim x)⟩ := by
  have ha := isBlank_of_gaps ha
  have hb := isBlank_of_gaps hb
  rw [Directive.ofText_assigned x (equals_not_mem_name_pad ha hb), trim_name_pad ha hb]

theorem ofText_bare {a b : Text} (ha : ∀ c ∈ a, isGap c = true) (hb : ∀ c ∈ b, isGap c = true) :
    Directive.ofText (a ++ k.name ++ b) = ⟨k.name, none⟩ := by
  have ha := isBlank_of_gaps ha
  have hb := isBlank_of_gaps hb
  rw [Directive.ofText_bare (equals_not_mem_name_pad ha hb), trim_name_pad ha hb]

theorem IsValue.trim_pad {a b : Text} (hv : IsValue v) (ha : ∀ c ∈ a, Text.isBlank c = true)
    (hb : ∀ c ∈ b, Text.isBlank c = true) : Text.trim (a ++ v ++ b) = v := by
  apply Text.trimBy_pad ha hb
  exact Text.trimBy_eq_self_of_forall hv.not_blank

theorem ofPiece?_line (k : Key) (hv : IsValue v) :
    Directive.ofPiece? (k.name ++ '=' :: v) = some ⟨k.name, some v⟩ := by
  have hbare : assignBare? k.name v k.name = some (k.name ++ '=' :: v) :=
    assignBare?_eq_some_iff.mpr ⟨[], [], by simp, by simp, by simp, by simp⟩
  have htext := ofText_assigned (k := k) (a := []) (b := []) v (by simp) (by simp)
  have htrim := hv.trim_pad (a := []) (b := []) (by simp) (by simp)
  rw [ofPiece?_of_afterKey? (IsAssignment.bare.isSome_afterKey? hbare).2]
  simp only [List.nil_append, List.append_nil] at htext htrim
  rw [htext, htrim]

theorem reads_line (hs : Setting.read k (some v) = .ok s) : Reads ⟨k.name, some v⟩ s := by
  have hkey := Setting.key_of_read hs
  exact ⟨Key.named?_eq_some_iff.mpr (by rw [hkey]), by rw [hkey]; exact hs⟩

theorem key_eq_of_named? (h : Key.named? k.name = some s.key) : s.key = k :=
  Key.name_injective (Key.named?_eq_some_iff.mp h)

theorem isBlank_rest {old front rest : Text} (hp : Plain p)
    (hold : Assigned k.name old p front rest)
    (hink : Text.Ink (Text.trim (old ++ rest))) : ∀ c ∈ rest, Text.isBlank c = true := by
  by_cases hne : old = []
  · have hnil : rest = [] := by
      cases hrest : rest with
      | nil => rfl
      | cons c r =>
        have hblank := hold.head?_rest c (by rw [hrest]; rfl)
        have hgap := hp c (by rw [hold.piece_eq, hrest]; simp) hblank
        have hnot := hold.head?_old c (by rw [hne, hrest]; rfl)
        rw [hgap] at hnot
        cases hnot
    rw [hnil]
    exact fun c hc => absurd hc (by simp)
  · exact Text.forall_of_trimBy_append hne hold.not_blank hold.head?_rest hink

theorem IsAssignment.key_ofText {f : Text → Option Text} (hf : IsAssignment k v f)
    (hpq : f p = some q) :
    (Directive.ofText p).key = k.name ∧ (Directive.ofText q).key = k.name := by
  cases hf with
  | assign =>
    obtain ⟨front, old, rest, hold, rfl⟩ := assign?_eq_some_iff.mp hpq
    obtain ⟨a, b, c, ha, hb, -, hfront⟩ := hold.front_eq
    have hkey : ∀ x, (Directive.ofText (front ++ x ++ rest)).key = k.name := by
      intro x
      have heq : front ++ x ++ rest = a ++ k.name ++ b ++ '=' :: (c ++ x ++ rest) := by
        rw [hfront]
        simp
      rw [heq, ofText_assigned _ ha hb]
    exact ⟨hold.piece_eq ▸ hkey old, hkey v⟩
  | bare =>
    obtain ⟨a, b, ha, hb, rfl, rfl⟩ := assignBare?_eq_some_iff.mp hpq
    have hnew : a ++ k.name ++ '=' :: v ++ b = a ++ k.name ++ [] ++ '=' :: (v ++ b) := by simp
    rw [ofText_bare ha hb, hnew, ofText_assigned _ ha (by simp)]
    exact ⟨rfl, rfl⟩

/-- What an assignment makes of an accepted piece is read as the assigned value. -/
theorem IsAssignment.ofText_eq {f : Text → Option Text} (hv : IsValue v) (hf : IsAssignment k v f)
    (hpq : f p = some q) (hp : Plain p) (hs : Reads (Directive.ofText p) s) :
    s.key = k ∧ Directive.ofText q = ⟨k.name, some v⟩ := by
  cases hf with
  | assign =>
    obtain ⟨front, old, rest, hold, rfl⟩ := assign?_eq_some_iff.mp hpq
    obtain ⟨a, b, c, ha, hb, hc, hfront⟩ := hold.front_eq
    have hpiece : p = a ++ k.name ++ b ++ '=' :: (c ++ (old ++ rest)) := by
      rw [hold.piece_eq, hfront]
      simp
    have hnew : front ++ v ++ rest = a ++ k.name ++ b ++ '=' :: (c ++ v ++ rest) := by
      rw [hfront]
      simp
    rw [hpiece, ofText_assigned _ ha hb] at hs
    have htrim : Text.trim (c ++ (old ++ rest)) = Text.trim (old ++ rest) :=
      Text.trimBy_append_left _ (isBlank_of_gaps hc)
    have hink : Text.Ink (Text.trim (c ++ (old ++ rest))) :=
      Setting.ink_of_read (Text.trimBy_trimBy _ _) hs.read
    rw [htrim] at hink
    have hrest := isBlank_rest hp hold hink
    refine ⟨key_eq_of_named? hs.named, ?_⟩
    rw [hnew, ofText_assigned _ ha hb, hv.trim_pad (isBlank_of_gaps hc) hrest]
  | bare =>
    obtain ⟨a, b, ha, hb, rfl, rfl⟩ := assignBare?_eq_some_iff.mp hpq
    rw [ofText_bare ha hb] at hs
    have hnew : a ++ k.name ++ '=' :: v ++ b = a ++ k.name ++ [] ++ '=' :: ([] ++ v ++ b) := by simp
    refine ⟨key_eq_of_named? hs.named, ?_⟩
    rw [hnew, ofText_assigned _ ha (by simp), hv.trim_pad (by simp) (isBlank_of_gaps hb)]

theorem isSome_assign?_or (value : Text) (hp : Plain p) (hs : Reads (Directive.ofText p) s) :
    (assign? s.key.name value p).isSome ∨ (assignBare? s.key.name value p).isSome := by
  have hplain : ∀ {a t b : Text}, a ++ t ++ b ⊆ p → (∀ c ∈ a, Text.isBlank c = true) →
      (∀ c ∈ b, Text.isBlank c = true) → (∀ c ∈ a, isGap c = true) ∧ ∀ c ∈ b, isGap c = true := by
    intro a t b hsub ha hb
    exact ⟨fun c hc => hp c (hsub (by simp [hc])) (ha c hc),
      fun c hc => hp c (hsub (by simp [hc])) (hb c hc)⟩
  cases hbreak : Text.breakAt? '=' p with
  | none =>
    rw [Directive.ofText_bare (Text.breakAt?_eq_none_iff.mp hbreak)] at hs
    obtain ⟨a, b, ha, hb, heq⟩ := Text.exists_pad Text.isBlank p
    obtain ⟨ha, hb⟩ := hplain (by rw [← heq]; exact List.Subset.refl p) ha hb
    have hname : s.key.name = Text.trimBy Text.isBlank p := Key.named?_eq_some_iff.mp hs.named
    rw [← hname] at heq
    right
    rw [assignBare?_eq_some_iff.mpr ⟨a, b, ha, hb, heq, rfl⟩]
    rfl
  | some cut =>
    obtain ⟨hcut, hkey⟩ := Text.breakAt?_eq_some (a := cut.1) (b := cut.2) hbreak
    rw [hcut, Directive.ofText_assigned _ hkey] at hs
    obtain ⟨a, b, ha, hb, heq⟩ := Text.exists_pad Text.isBlank cut.1
    obtain ⟨ha, hb⟩ := hplain (by rw [← heq, hcut]; exact List.subset_append_left _ _) ha hb
    have hname : s.key.name = Text.trimBy Text.isBlank cut.1 := Key.named?_eq_some_iff.mp hs.named
    rw [← hname] at heq
    have hafter : afterKey? s.key.name p = some (a ++ s.key.name, b ++ '=' :: cut.2) :=
      afterKey?_eq_some_iff.mpr ⟨a, ha, rfl, by rw [hcut, heq]; simp⟩
    have hequals : ∀ c ∈ ('=' :: cut.2).head?, isGap c = false := by
      intro c hc
      cases hc
      decide
    left
    simp only [assign?, hafter, Text.dropWhile_run hb hequals]
    rfl

theorem IsAssignment.plain {f : Text → Option Text} (hv : IsValue v) (hf : IsAssignment k v f)
    (hpq : f p = some q) (hp : Plain p) : Plain q := by
  intro c hc hblank
  have hvalue : c ∉ v := by
    intro h
    rw [hv.not_blank c h] at hblank
    cases hblank
  cases hf with
  | assign =>
    obtain ⟨front, old, rest, hold, rfl⟩ := assign?_eq_some_iff.mp hpq
    apply hp c _ hblank
    rw [hold.piece_eq]
    simp only [List.mem_append, hvalue, or_false] at hc ⊢
    exact hc.imp_left .inl
  | bare =>
    obtain ⟨a, b, -, -, rfl, rfl⟩ := assignBare?_eq_some_iff.mp hpq
    apply hp c _ hblank
    have hequals : c ≠ '=' := by
      intro heq
      rw [heq] at hblank
      cases hblank
    simp only [List.mem_append, List.mem_cons, hvalue, hequals, or_false] at hc ⊢
    exact hc

end Source

end GraphBlock
