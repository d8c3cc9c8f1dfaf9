import GraphBlock.Proofs.Source.Segments
import GraphBlock.Proofs.Text.Pieces
import GraphBlock.Proofs.Text.Trim
import GraphBlock.Source

namespace GraphBlock

namespace Key

theorem forall_name {P : Char → Prop} [DecidablePred P] (h : ∀ k ∈ all, ∀ c ∈ k.name, P c)
    (k : Key) : ∀ c ∈ k.name, P c :=
  h k (mem_all k)

theorem name_not_blank (k : Key) : ∀ c ∈ k.name, Text.isBlank c = false :=
  forall_name (by decide) k

theorem name_not_delimiter (k : Key) : ∀ c ∈ k.name, Overrides.isDelimiter c = false :=
  forall_name (by decide) k

theorem equals_not_mem_name (k : Key) : '=' ∉ k.name := fun h => by
  simpa using forall_name (P := (· ≠ '=')) (by decide) k _ h

theorem dash_not_mem_name (k : Key) : '-' ∉ k.name := fun h => by
  simpa using forall_name (P := (· ≠ '-')) (by decide) k _ h

theorem name_ne_nil (k : Key) : k.name ≠ [] := by
  have : ∀ k ∈ all, k.name ≠ [] := by decide
  exact this k (mem_all k)

theorem eq_of_name_prefix {j k : Key} (h : j.name <+: k.name) : j = k := by
  have : ∀ j ∈ all, ∀ k ∈ all, j.name.isPrefixOf k.name = true → j = k := by decide
  exact this j (mem_all j) k (mem_all k) (List.isPrefixOf_iff_prefix.mpr h)

end Key

namespace Source

theorem isBlank_of_isGap {c : Char} (h : isGap c = true) : Text.isBlank c = true := by
  simp only [isGap, Bool.or_eq_true, beq_iff_eq] at h
  rcases h with rfl | rfl <;> decide

theorem not_isGap {c : Char} (h : Text.isBlank c = false) : isGap c = false := by
  cases hc : isGap c with
  | false => rfl
  | true => rw [isBlank_of_isGap hc] at h; cases h

variable {j k : Key} {value piece : Text}

theorem head?_name_append (k : Key) (t : Text) : ∀ c ∈ (k.name ++ t).head?, isGap c = false := by
  intro c hc
  rw [List.head?_append_of_ne_nil _ k.name_ne_nil] at hc
  exact not_isGap (k.name_not_blank c (List.mem_of_mem_head? hc))

theorem afterKey?_eq_some_iff {front rest : Text} :
    afterKey? k.name piece = some (front, rest) ↔
      ∃ a, (∀ c ∈ a, isGap c = true) ∧ front = a ++ k.name ∧ piece = a ++ k.name ++ rest := by
  constructor
  · intro h
    rw [afterKey?] at h
    split at h
    · next hpre =>
      cases h
      obtain ⟨rest, hrest⟩ := List.isPrefixOf_iff_prefix.mp hpre
      refine ⟨piece.takeWhile isGap, fun c => List.mem_takeWhile_imp, rfl, ?_⟩
      rw [← hrest, List.drop_left, List.append_assoc, hrest, List.takeWhile_append_dropWhile]
    · cases h
  · rintro ⟨a, ha, rfl, rfl⟩
    rw [afterKey?, List.append_assoc, Text.dropWhile_run ha (head?_name_append k rest),
      Text.takeWhile_run ha (head?_name_append k rest), List.drop_left]
    simp

theorem afterKey?_eq_none {x : Text × Text} (hjk : j ≠ k) (h : afterKey? j.name piece = some x) :
    afterKey? k.name piece = none := by
  cases hk : afterKey? k.name piece with
  | none => rfl
  | some y =>
    obtain ⟨a, ha, -, rfl⟩ := afterKey?_eq_some_iff.mp h
    obtain ⟨b, hb, -, heq⟩ := afterKey?_eq_some_iff.mp hk
    have hdrop := congrArg (List.dropWhile isGap) heq
    rw [List.append_assoc, List.append_assoc, Text.dropWhile_run ha (head?_name_append j _),
      Text.dropWhile_run hb (head?_name_append k _)] at hdrop
    rcases List.prefix_or_prefix_of_prefix (List.prefix_append j.name x.2)
      (hdrop ▸ List.prefix_append k.name y.2) with hjk' | hkj
    · exact absurd (Key.eq_of_name_prefix hjk') hjk
    · exact absurd (Key.eq_of_name_prefix hkj).symm hjk

/-- A text that can be the value of a directive wherever that stands: one run without blanks and
delimiters, which cannot be taken for the delimiter of segments, nor for a part of it that
follows. -/
structure IsValue (value : Text) : Prop where
  ne_nil : value ≠ []
  not_blank : ∀ c ∈ value, Text.isBlank c = false
  not_delimiter : ∀ c ∈ value, Overrides.isDelimiter c = false
  not_infix : ¬ delimiter <:+: value
  getLast?_ne : ∀ c ∈ value.getLast?, c ≠ '-'

theorem IsValue.line_not_delimiter (hv : IsValue value) (k : Key) :
    ∀ c ∈ k.name ++ '=' :: value, Overrides.isDelimiter c = false := by
  intro c hc
  rcases List.mem_append.mp hc with hc | hc
  · exact k.name_not_delimiter c hc
  · rcases List.mem_cons.mp hc with hc | hc
    · rw [hc]
      rfl
    · exact hv.not_delimiter c hc

structure Assigned (key old piece front rest : Text) : Prop where
  piece_eq : piece = front ++ old ++ rest
  front_eq : ∃ a b c, (∀ x ∈ a, isGap x = true) ∧ (∀ x ∈ b, isGap x = true) ∧
    (∀ x ∈ c, isGap x = true) ∧ front = a ++ key ++ b ++ '=' :: c
  not_blank : ∀ x ∈ old, Text.isBlank x = false
  head?_rest : ∀ x ∈ rest.head?, Text.isBlank x = true
  head?_old : ∀ x ∈ (old ++ rest).head?, isGap x = false

theorem assign?_eq_some_iff {new : Text} :
    assign? k.name value piece = some new ↔
      ∃ front old rest, Assigned k.name old piece front rest ∧ new = front ++ value ++ rest := by
  constructor
  · intro h
    rw [assign?] at h
    split at h
    · cases h
    · next front tail hkey =>
      obtain ⟨a, ha, rfl, rfl⟩ := afterKey?_eq_some_iff.mp hkey
      split at h
      · next old hold =>
        injection h with h
        subst h
        have htail : tail = tail.takeWhile isGap ++ '=' :: old := by
          rw [← hold, List.takeWhile_append_dropWhile]
        refine ⟨a ++ k.name ++ tail.takeWhile isGap ++ '=' :: old.takeWhile isGap,
          (old.dropWhile isGap).takeWhile (!Text.isBlank ·),
          (old.dropWhile isGap).dropWhile (!Text.isBlank ·),
          ⟨?_, ⟨a, tail.takeWhile isGap, old.takeWhile isGap, ha, fun _ => List.mem_takeWhile_imp,
            fun _ => List.mem_takeWhile_imp, rfl⟩, ?_, ?_, ?_⟩, ?_⟩
        · conv_lhs => rw [htail]
          simp only [List.append_assoc, List.cons_append, List.takeWhile_append_dropWhile]
        · intro x hx
          simpa using List.mem_takeWhile_imp hx
        · intro x hx
          simpa using Text.head?_of_dropWhile hx
        · rw [List.takeWhile_append_dropWhile]
          exact fun x hx => Text.head?_of_dropWhile hx
        · simp
      · cases h
  · rintro ⟨-, old, rest, ⟨rfl, ⟨a, b, c, ha, hb, hc, rfl⟩, hold, hrest, hhead⟩, rfl⟩
    have hkey : afterKey? k.name (a ++ k.name ++ b ++ '=' :: c ++ old ++ rest) =
        some (a ++ k.name, b ++ '=' :: (c ++ (old ++ rest))) :=
      afterKey?_eq_some_iff.mpr ⟨a, ha, rfl, by simp⟩
    have hequals : ∀ x ∈ ('=' :: (c ++ (old ++ rest))).head?, isGap x = false := by
      rintro x ⟨⟩
      decide
    have hold' : ∀ x ∈ old, (!Text.isBlank x) = true := by
      intro x hx
      simp [hold x hx]
    have hrest' : ∀ x ∈ rest.head?, (!Text.isBlank x) = false := by
      intro x hx
      simp [hrest x hx]
    simp only [assign?, hkey, Text.dropWhile_run hb hequals, Text.takeWhile_run hb hequals,
      Text.dropWhile_run hc hhead, Text.takeWhile_run hc hhead, Text.dropWhile_run hold' hrest']

theorem assignBare?_eq_some_iff {new : Text} :
    assignBare? k.name value piece = some new ↔
      ∃ a b, (∀ c ∈ a, isGap c = true) ∧ (∀ c ∈ b, isGap c = true) ∧ piece = a ++ k.name ++ b ∧
        new = a ++ k.name ++ '=' :: value ++ b := by
  constructor
  · intro h
    rw [assignBare?] at h
    split at h
    · cases h
    · next front rest hkey =>
      obtain ⟨a, ha, rfl, rfl⟩ := afterKey?_eq_some_iff.mp hkey
      split at h
      · next hrest =>
        injection h with h
        exact ⟨a, rest, ha, List.all_eq_true.mp hrest, rfl, by simp [← h]⟩
      · cases h
  · rintro ⟨a, b, ha, hb, rfl, rfl⟩
    rw [assignBare?, afterKey?_eq_some_iff.mpr ⟨a, ha, rfl, rfl⟩]
    simpa using hb

theorem isSome_afterKey?_of_assign? {new : Text} (h : assign? k.name value piece = some new) :
    (afterKey? k.name piece).isSome ∧ (afterKey? k.name new).isSome := by
  obtain ⟨-, old, rest, ⟨rfl, ⟨a, b, c, ha, -, -, rfl⟩, -, -, -⟩, rfl⟩ := assign?_eq_some_iff.mp h
  constructor
  · rw [afterKey?_eq_some_iff.mpr ⟨a, ha, rfl, by simp; rfl⟩]
    rfl
  · rw [afterKey?_eq_some_iff.mpr ⟨a, ha, rfl, by simp; rfl⟩]
    rfl

theorem isSome_afterKey?_of_assignBare? {new : Text}
    (h : assignBare? k.name value piece = some new) :
    (afterKey? k.name piece).isSome ∧ (afterKey? k.name new).isSome := by
  obtain ⟨a, b, ha, -, rfl, rfl⟩ := assignBare?_eq_some_iff.mp h
  constructor
  · rw [afterKey?_eq_some_iff.mpr ⟨a, ha, rfl, rfl⟩]
    rfl
  · rw [afterKey?_eq_some_iff.mpr ⟨a, ha, rfl, by simp; rfl⟩]
    rfl

/-- The two ways in which the rewriter gives a piece a value. -/
inductive IsAssignment (k : Key) (value : Text) : (Text → Option Text) → Prop
  | assign : IsAssignment k value (assign? k.name value)
  | bare : IsAssignment k value (assignBare? k.name value)

theorem IsAssignment.isSome_afterKey? {f : Text → Option Text} {new : Text}
    (hf : IsAssignment k value f) (h : f piece = some new) :
    (afterKey? k.name piece).isSome ∧ (afterKey? k.name new).isSome := by
  cases hf with
  | assign => exact isSome_afterKey?_of_assign? h
  | bare => exact isSome_afterKey?_of_assignBare? h

theorem IsAssignment.eq_none {f : Text → Option Text} (hf : IsAssignment k value f)
    (h : afterKey? k.name piece = none) : f piece = none := by
  cases hf with
  | assign => simp [assign?, h]
  | bare => simp [assignBare?, h]

theorem IsAssignment.apart {f g : Text → Option Text} {other : Text} (hjk : j ≠ k)
    (hf : IsAssignment j value f) (hg : IsAssignment k other g) : Pieces.Apart f g := by
  intro p q hpq
  obtain ⟨hp, hq⟩ := hf.isSome_afterKey? hpq
  obtain ⟨x, hx⟩ := Option.isSome_iff_exists.mp hp
  obtain ⟨y, hy⟩ := Option.isSome_iff_exists.mp hq
  exact ⟨hg.eq_none (afterKey?_eq_none hjk hx), hg.eq_none (afterKey?_eq_none hjk hy)⟩

theorem assign?_of_assign? {new other : Text} (hv : IsValue value)
    (h : assign? k.name value piece = some new) :
    assign? k.name other new = assign? k.name other piece ∧
      (assign? k.name other piece).isSome := by
  obtain ⟨front, old, rest, hold, rfl⟩ := assign?_eq_some_iff.mp h
  have hnew : Assigned k.name value (front ++ value ++ rest) front rest := by
    refine ⟨rfl, hold.front_eq, hv.not_blank, hold.head?_rest, fun c hc => ?_⟩
    rw [List.head?_append_of_ne_nil _ hv.ne_nil] at hc
    exact not_isGap (hv.not_blank c (List.mem_of_mem_head? hc))
  rw [assign?_eq_some_iff.mpr ⟨front, old, rest, hold, rfl⟩,
    assign?_eq_some_iff.mpr ⟨front, value, rest, hnew, rfl⟩]
  exact ⟨rfl, rfl⟩

theorem assign?_of_assignBare? {new other : Text} (hv : IsValue value)
    (h : assignBare? k.name value piece = some new) :
    assign? k.name other new = assignBare? k.name other piece ∧
      (assignBare? k.name other piece).isSome := by
  obtain ⟨a, b, ha, hb, rfl, rfl⟩ := assignBare?_eq_some_iff.mp h
  have hnew : Assigned k.name value (a ++ k.name ++ '=' :: value ++ b) (a ++ k.name ++ ['='])
      b := by
    refine ⟨by simp, ⟨a, [], [], ha, by simp, by simp, by simp⟩, hv.not_blank, fun c hc => ?_,
      fun c hc => ?_⟩
    · exact isBlank_of_isGap (hb c (List.mem_of_mem_head? hc))
    · rw [List.head?_append_of_ne_nil _ hv.ne_nil] at hc
      exact not_isGap (hv.not_blank c (List.mem_of_mem_head? hc))
  rw [assign?_eq_some_iff.mpr ⟨_, value, b, hnew, rfl⟩,
    assignBare?_eq_some_iff.mpr ⟨a, b, ha, hb, rfl, rfl⟩]
  simp

theorem assign?_eq_none {other : Text} (h : assign? k.name value piece = none) :
    assign? k.name other piece = none := by
  rw [Option.eq_none_iff_forall_ne_some] at h ⊢
  intro new hnew
  obtain ⟨front, old, rest, hold, rfl⟩ := assign?_eq_some_iff.mp hnew
  exact h _ (assign?_eq_some_iff.mpr ⟨front, old, rest, hold, rfl⟩)

theorem assignBare?_eq_none {other : Text} (h : assignBare? k.name value piece = none) :
    assignBare? k.name other piece = none := by
  rw [Option.eq_none_iff_forall_ne_some] at h ⊢
  intro new hnew
  obtain ⟨a, b, ha, hb, rfl, rfl⟩ := assignBare?_eq_some_iff.mp hnew
  exact h _ (assignBare?_eq_some_iff.mpr ⟨a, b, ha, hb, rfl, rfl⟩)

theorem assign?_line {other : Text} (hv : IsValue value) :
    assign? k.name other (k.name ++ '=' :: value) = some (k.name ++ '=' :: other) := by
  have hbare : assignBare? k.name value k.name = some (k.name ++ '=' :: value) :=
    assignBare?_eq_some_iff.mpr ⟨[], [], by simp, by simp, by simp, by simp⟩
  rw [(assign?_of_assignBare? hv hbare).1]
  exact assignBare?_eq_some_iff.mpr ⟨[], [], by simp, by simp, by simp, by simp⟩

theorem afterKey?_nil (k : Key) : afterKey? k.name [] = none := by
  rw [Option.eq_none_iff_forall_ne_some]
  rintro ⟨front, rest⟩ h
  obtain ⟨a, -, -, hnil⟩ := afterKey?_eq_some_iff.mp h
  simp [k.name_ne_nil] at hnil

theorem IsAssignment.ne_nil {f : Text → Option Text} {new : Text} (hf : IsAssignment k value f)
    (h : f piece = some new) : piece ≠ [] ∧ new ≠ [] := by
  obtain ⟨hp, hq⟩ := hf.isSome_afterKey? h
  constructor
  · rintro rfl
    simp [afterKey?_nil] at hp
  · rintro rfl
    simp [afterKey?_nil] at hq

/-- An assignment passes over the line of another key. -/
theorem IsAssignment.line_eq_none {f : Text → Option Text} {other : Text} (hjk : j ≠ k)
    (hf : IsAssignment j value f) : f (k.name ++ '=' :: other) = none := by
  apply hf.eq_none
  exact afterKey?_eq_none hjk.symm (afterKey?_eq_some_iff.mpr ⟨[], by simp, rfl, by simp; rfl⟩)

theorem IsAssignment.not_delimiter {f : Text → Option Text} {new : Text} (hv : IsValue value)
    (hf : IsAssignment k value f) (h : f piece = some new)
    (hpiece : ∀ c ∈ piece, Overrides.isDelimiter c = false) :
    ∀ c ∈ new, Overrides.isDelimiter c = false := by
  intro x hx
  cases hf with
  | assign =>
    obtain ⟨front, old, rest, hold, rfl⟩ := assign?_eq_some_iff.mp h
    simp only [hold.piece_eq, List.mem_append] at hpiece hx
    rcases hx with (hx | hx) | hx
    · exact hpiece x (.inl (.inl hx))
    · exact hv.not_delimiter x hx
    · exact hpiece x (.inr hx)
  | bare =>
    obtain ⟨a, b, ha, hb, rfl, rfl⟩ := assignBare?_eq_some_iff.mp h
    simp only [List.mem_append, List.mem_cons] at hpiece hx
    rcases hx with (hx | rfl | hx) | hx
    · exact hpiece x (.inl hx)
    · rfl
    · exact hv.not_delimiter x hx
    · exact hpiece x (.inr hx)

theorem dash_not_gap {a : Text} (ha : ∀ c ∈ a, isGap c = true) :
    ∀ c ∈ a.getLast?, c ∉ delimiter := by
  intro c hc hdash
  rw [mem_delimiter] at hdash
  have := ha c (List.mem_of_getLast? hc)
  simp [hdash, isGap] at this

theorem IsAssignment.not_infix {f : Text → Option Text} {new tail : Text} (hv : IsValue value)
    (hf : IsAssignment k value f) (h : f piece = some new)
    (hpiece : ¬ delimiter <:+: piece ++ tail) : ¬ delimiter <:+: new ++ tail := by
  have hequals : ('=' : Char) ≠ '-' := by decide
  have hlast : ∀ c ∈ value.getLast?, c ∉ delimiter := by
    intro c hc hdash
    exact hv.getLast?_ne c hc (mem_delimiter.mp hdash)
  have hvalue : ∀ t : Text, delimiter <:+: value ++ t → delimiter <:+: t := by
    intro t ht
    exact ((infix_append_iff_of_getLast hlast).mp ht).resolve_left hv.not_infix
  intro hin
  apply hpiece
  cases hf with
  | assign =>
    obtain ⟨-, old, rest, ⟨rfl, ⟨a, b, c, -, -, hc, rfl⟩, -, -, -⟩, rfl⟩ :=
      assign?_eq_some_iff.mp h
    simp only [List.append_assoc, List.cons_append] at hin ⊢
    simp only [← List.append_assoc a, ← List.append_assoc (a ++ k.name)] at hin ⊢
    rw [delimiter_infix_cons_iff hequals] at hin ⊢
    refine hin.imp_right fun hin => ?_
    rw [infix_append_iff_of_getLast (dash_not_gap hc)] at hin ⊢
    exact hin.imp_right fun hin => List.infix_append_of_infix_right (hvalue _ hin)
  | bare =>
    obtain ⟨a, b, -, hb, rfl, rfl⟩ := assignBare?_eq_some_iff.mp h
    simp only [List.append_assoc, List.cons_append] at hin ⊢
    simp only [← List.append_assoc a] at hin ⊢
    rcases (delimiter_infix_cons_iff hequals).mp hin with hin | hin
    · exact List.infix_append_of_infix_left hin
    · exact List.infix_append_of_infix_right (hvalue _ hin)

end Source

end GraphBlock
