import GraphBlock.Proofs.Equation.Tag
import GraphBlock.Proofs.Text.Layout

/-!
Layouts of a block. Directives and equation lines may be spaced in many ways; what is read of a
segment are the directives, and of a line its segments, whatever the layout.
-/

namespace GraphBlock

open Text

theorem Source.not_infix_padded {isPadding : Char → Bool} {t p : Text} (h : Padded isPadding t p)
    (hpadding : isPadding '-' = false) (ht : ¬ Source.delimiter <:+: t) :
    ¬ Source.delimiter <:+: p := by
  obtain ⟨a, b, ha, hb, hp⟩ := h
  have hdash : ∀ {u : Text}, (∀ c ∈ u, isPadding c = true) → '-' ∉ u := by
    intro u hu hmem
    rw [hu '-' hmem] at hpadding
    cases hpadding
  have hfront : ∀ c ∈ a.getLast?, c ∉ Source.delimiter := by
    intro c hc hin
    exact hdash ha (mem_delimiter.mp hin ▸ List.mem_of_getLast? hc)
  have hback : ∀ c ∈ b.head?, c ∉ Source.delimiter := by
    intro c hc hin
    exact hdash hb (mem_delimiter.mp hin ▸ List.mem_of_mem_head? hc)
  rw [hp, infix_append_iff_of_head hback, infix_append_iff_of_getLast hfront]
  rintro ((hin | hin) | hin)
  · exact hdash ha (hin.subset (mem_delimiter.mpr rfl))
  · exact ht hin
  · exact hdash hb (hin.subset (mem_delimiter.mpr rfl))

theorem Source.not_infix_laidOut {α : Type} {isDelimiter isPadding : Char → Bool}
    {Stands : α → Text → Prop} {as : List α} {t : Text}
    (h : LaidOut isDelimiter isPadding Stands as t) (hdelimiter : isDelimiter '-' = false)
    (hpadding : isPadding '-' = false)
    (hitems : ∀ a ∈ as, ∀ p, Stands a p → ¬ Source.delimiter <:+: p) :
    ¬ Source.delimiter <:+: t := by
  have hne : ∀ {q : Char → Bool} {c : Char}, q '-' = false → q c = true → c ≠ '-' := by
    intro q c hq hc heq
    rw [heq, hq] at hc
    cases hc
  apply h.of_pieces (P := fun t => ¬ Source.delimiter <:+: t)
  · intro p hp hin
    exact hne hpadding (hp '-' (hin.subset (mem_delimiter.mpr rfl))) rfl
  · exact hitems
  · intro p d t hd hp ht
    rw [delimiter_infix_cons_iff (hne hdelimiter hd), not_or]
    exact ⟨hp, ht⟩

namespace Overrides

def isPadding (c : Char) : Bool := isBlank c && !isDelimiter c

/-- A text that can be a key or a value: trimmed, and without the syntax of segments. -/
structure IsField (t : Text) : Prop where
  trimmed : trim t = t
  not_delimiter : ∀ c ∈ t, isDelimiter c = false
  not_infix : ¬ Source.delimiter <:+: t

instance (t : Text) : Decidable (IsField t) :=
  decidable_of_iff
    (trim t = t ∧ (∀ c ∈ t, isDelimiter c = false) ∧ ¬ Source.delimiter <:+: t)
    ⟨fun h => ⟨h.1, h.2.1, h.2.2⟩, fun h => ⟨h.trimmed, h.not_delimiter, h.not_infix⟩⟩

namespace Directive

structure WellFormed (d : Directive) : Prop where
  key : IsField d.key
  not_equals : '=' ∉ d.key
  value : ∀ v ∈ d.value, IsField v

instance (d : Directive) : Decidable d.WellFormed :=
  decidable_of_iff (IsField d.key ∧ '=' ∉ d.key ∧ ∀ v ∈ d.value, IsField v)
    ⟨fun h => ⟨h.1, h.2.1, h.2.2⟩, fun h => ⟨h.key, h.not_equals, h.value⟩⟩

inductive Stands : Directive → Text → Prop
  | bare {key p : Text} (h : Padded isPadding key p) : Stands ⟨key, none⟩ p
  | assigned {key value p q : Text} (hkey : Padded isPadding key p)
      (hvalue : Padded isPadding value q) : Stands ⟨key, some value⟩ (p ++ '=' :: q)

def void : Directive := ⟨[], none⟩

end Directive

theorem isPadding_iff {c : Char} :
    isPadding c = true ↔ isBlank c = true ∧ isDelimiter c = false := by
  rw [isPadding, Bool.and_eq_true, Bool.not_eq_true']

theorem equals_not_mem_padded {t p : Text} (h : Padded isPadding t p) (ht : '=' ∉ t) : '=' ∉ p := by
  have hall : ∀ c ∈ p, c ≠ '=' := by
    apply h.forall_mem (P := fun c => c ≠ '=')
    · intro c hc heq
      rw [heq] at hc
      exact absurd hc (by decide)
    · exact fun c hc heq => ht (heq ▸ hc)
  exact fun hmem => hall _ hmem rfl

namespace Directive

variable {d : Directive} {p : Text}

theorem Stands.not_delimiter (h : d.Stands p) (hd : d.WellFormed) :
    ∀ c ∈ p, isDelimiter c = false := by
  have hpadded : ∀ {t p : Text}, Padded isPadding t p → IsField t →
      ∀ c ∈ p, isDelimiter c = false := by
    intro t p hp ht
    exact hp.forall_mem (fun c hc => (isPadding_iff.mp hc).2) ht.not_delimiter
  cases h with
  | bare h => exact hpadded h hd.key
  | assigned hkey hvalue =>
    intro c hc
    rcases List.mem_append.mp hc with hc | hc
    · exact hpadded hkey hd.key c hc
    · rcases List.mem_cons.mp hc with hc | hc
      · rw [hc]
        rfl
      · exact hpadded hvalue (hd.value _ rfl) c hc

theorem Stands.not_infix (h : d.Stands p) (hd : d.WellFormed) : ¬ Source.delimiter <:+: p := by
  cases h with
  | bare h => exact Source.not_infix_padded h (by decide) hd.key.not_infix
  | assigned hkey hvalue =>
    rw [Source.delimiter_infix_cons_iff (by decide), not_or]
    exact ⟨Source.not_infix_padded hkey (by decide) hd.key.not_infix,
      Source.not_infix_padded hvalue (by decide) <| IsField.not_infix (hd.value _ rfl)⟩

theorem Stands.ofText_eq (h : d.Stands p) (hd : d.WellFormed) : ofText p = d := by
  have hblank : ∀ c, isPadding c = true → isBlank c = true := by
    intro c hc
    exact (isPadding_iff.mp hc).1
  cases h with
  | bare h =>
    rw [ofText_bare (equals_not_mem_padded h hd.not_equals), h.trim_eq hblank hd.key.trimmed]
  | assigned hkey hvalue =>
    rw [ofText_assigned _ (equals_not_mem_padded hkey hd.not_equals),
      hkey.trim_eq hblank hd.key.trimmed, hvalue.trim_eq hblank (hd.value _ rfl).trimmed]

theorem Stands.trim_ne_nil (h : d.Stands p) (hd : d.WellFormed) (hvoid : d ≠ void) :
    trim p ≠ [] := by
  intro hnil
  apply hvoid
  rw [← h.ofText_eq hd, ← ofText_trim, hnil]
  rfl

end Directive

theorem directives_laidOut {ds : List Directive} {t : Text} (hds : ∀ d ∈ ds, d.WellFormed)
    (h : LaidOut isDelimiter isPadding Directive.Stands ds t) :
    directives t = ds.filter (· ≠ .void) := by
  have hvoid := h.filter (q := fun d => d ≠ .void) (by
    intro d hd p hp
    obtain rfl : d = .void := by simpa using hd
    cases hp with
    | bare hp => exact hp.forall_mem (P := (isPadding · = true)) (fun _ hc => hc) (by simp))
  have hmem : ∀ d ∈ ds.filter (· ≠ .void), d.WellFormed ∧ d ≠ .void := by
    intro d hd
    obtain ⟨hd, hne⟩ := List.mem_filter.mp hd
    exact ⟨hds d hd, of_decide_eq_true hne⟩
  have hparts : List.Forall₂ (fun d q => d = Directive.ofText q) (ds.filter (· ≠ .void))
      (parts isDelimiter t) := by
    apply hvoid.forall₂_parts (fun c hc => isPadding_iff.mp hc)
    · exact fun d hd p hp => hp.not_delimiter (hmem d hd).1
    · intro d hd p hp
      obtain ⟨hwell, hne⟩ := hmem d hd
      exact ⟨hp.trim_ne_nil hwell hne, by rw [Directive.ofText_trim, hp.ofText_eq hwell]⟩
  rw [← List.forall₂_map_right_iff, List.forall₂_eq_eq_eq] at hparts
  exact hparts.symm

end Overrides

namespace EquationLine

def isPadding (c : Char) : Bool := isBlank c && !isLineBreak c

def Stands (segments : List Text) (line : Text) : Prop :=
  LaidOut (· == '|') isPadding (Padded isPadding) segments line

variable {segs : List Text} {line : Text}

theorem isPadding_iff {c : Char} :
    isPadding c = true ↔ isBlank c = true ∧ isLineBreak c = false := by
  rw [isPadding, Bool.and_eq_true, Bool.not_eq_true']

theorem Stands.not_break (h : Stands segs line) (hsegs : ∀ t ∈ segs, IsSegment t) :
    ∀ c ∈ line, isLineBreak c = false := by
  apply h.of_pieces (P := fun line => ∀ c ∈ line, isLineBreak c = false)
  · exact fun p hp c hc => (isPadding_iff.mp (hp c hc)).2
  · exact fun t ht p hp =>
      hp.forall_mem (fun c hc => (isPadding_iff.mp hc).2) (hsegs t ht).not_break
  · intro p d t hd hp ht c hc
    rcases List.mem_append.mp hc with hc | hc
    · exact hp c hc
    · rcases List.mem_cons.mp hc with hc | hc
      · rw [hc, beq_iff_eq.mp hd]
        rfl
      · exact ht c hc

theorem Stands.not_infix (h : Stands segs line) (hsegs : ∀ t ∈ segs, IsSegment t) :
    ¬ Source.delimiter <:+: line :=
  Source.not_infix_laidOut h (by decide) (by decide) fun t ht _ hp =>
    Source.not_infix_padded hp (by decide) <| IsSegment.not_infix (hsegs t ht)

theorem Stands.segments_eq (h : Stands segs line) (hsegs : ∀ t ∈ segs, IsSegment t) :
    segments (trim line) = segs := by
  have hbar : ∀ c, isBlank c = true → (c == '|') = false := by
    intro c hc
    rw [beq_eq_false_iff_ne]
    intro heq
    rw [heq] at hc
    exact absurd hc (by decide)
  have hparts : List.Forall₂ (· = ·) segs (parts (· == '|') line) := by
    apply h.forall₂_parts
    · exact fun c hc => ⟨(isPadding_iff.mp hc).1, hbar c (isPadding_iff.mp hc).1⟩
    · intro t ht p hp
      apply hp.forall_mem (P := fun c => (c == '|') = false)
      · exact fun c hc => hbar c (isPadding_iff.mp hc).1
      · intro c hc
        rw [beq_eq_false_iff_ne]
        exact fun heq => (hsegs t ht).not_bar (heq ▸ hc)
    · intro t ht p hp
      rw [hp.trim_eq (fun c hc => (isPadding_iff.mp hc).1) (hsegs t ht).trimmed]
      exact ⟨(hsegs t ht).ne_nil, rfl⟩
  rw [List.forall₂_eq_eq_eq] at hparts
  rw [segments, parts_trim hbar, hparts]

theorem Stands.trim_ne_nil (h : Stands segs line) (hsegs : ∀ t ∈ segs, IsSegment t)
    (hne : segs ≠ []) : trim line ≠ [] := by
  intro hnil
  apply hne
  rw [← h.segments_eq hsegs, hnil]
  rfl

end EquationLine

namespace Source

/-- A block laid out. A block without directives may leave out the delimiter and all before it. -/
inductive Layout : List Overrides.Directive → List (List Text) → Text → Prop
  | delimited {directives : List Overrides.Directive} {lines : List (List Text)}
      {settings equations : Text}
      (hsettings : LaidOut Overrides.isDelimiter Overrides.isPadding Overrides.Directive.Stands
        directives settings)
      (hline : ∀ c ∈ settings.getLast?, c ≠ '-')
      (hequations : LaidOut isLineBreak EquationLine.isPadding EquationLine.Stands lines
        equations) :
      Layout directives lines (settings ++ delimiter ++ equations)
  | plain {lines : List (List Text)} {equations : Text}
      (hequations : LaidOut isLineBreak EquationLine.isPadding EquationLine.Stands lines
        equations) :
      Layout [] lines equations

variable {ds : List Overrides.Directive} {ls : List (List Text)} {settings equations : Text}

/-- No delimiter begins in a laid out settings segment that does not end in a dash. -/
theorem clear_laidOut (hds : ∀ d ∈ ds, d.WellFormed)
    (h : LaidOut Overrides.isDelimiter Overrides.isPadding Overrides.Directive.Stands ds settings)
    (hline : ∀ c ∈ settings.getLast?, c ≠ '-') : Clear settings := by
  have hfree : ¬ delimiter <:+: settings :=
    not_infix_laidOut h (by decide) (by decide) fun d hd _ hp => hp.not_infix (hds d hd)
  have hlast : ∀ c ∈ settings.getLast?, c ∉ delimiter := by
    intro c hc hin
    exact hline c hc (mem_delimiter.mp hin)
  rw [Clear, infix_append_iff_of_getLast hlast, not_or]
  refine ⟨hfree, fun hin => ?_⟩
  exact absurd hin.length_le (by decide)

theorem lines_laidOut (hls : ∀ l ∈ ls, l ≠ [] ∧ ∀ t ∈ l, IsSegment t)
    (h : LaidOut isLineBreak EquationLine.isPadding EquationLine.Stands ls equations) :
    List.Forall₂ (fun l line => EquationLine.segments line = l) ls (Text.lines equations) := by
  apply h.forall₂_parts (fun c hc => EquationLine.isPadding_iff.mp hc)
  · exact fun l hl p hp => EquationLine.Stands.not_break hp (hls l hl).2
  · intro l hl p hp
    obtain ⟨hne, hsegs⟩ := hls l hl
    exact ⟨EquationLine.Stands.trim_ne_nil hp hsegs hne, EquationLine.Stands.segments_eq hp hsegs⟩

/-- A laid out block is cut into segments that are read as what was laid out. -/
theorem segments_of_layout {source : Text} (hds : ∀ d ∈ ds, d.WellFormed)
    (hls : ∀ l ∈ ls, l ≠ [] ∧ ∀ t ∈ l, IsSegment t) (h : Layout ds ls source) :
    ∃ settings equations, segments source = .ok (settings, equations) ∧
      Overrides.parse settings = Overrides.ofDirectives (ds.filter (· ≠ .void)) ∧
      List.Forall₂ (fun l line => EquationLine.segments line = l) ls (Text.lines equations) := by
  have hfree : ∀ {equations : Text},
      LaidOut isLineBreak EquationLine.isPadding EquationLine.Stands ls equations →
      breakDelimiter? equations = none := by
    intro equations h
    exact breakDelimiter?_eq_none_iff.mpr (not_infix_laidOut h (by decide) (by decide)
      fun l hl p hp => EquationLine.Stands.not_infix hp (hls l hl).2)
  cases h with
  | @delimited _ _ settings equations hsettings hline hequations =>
    refine ⟨some settings, equations, ?_, ?_, lines_laidOut hls hequations⟩
    · rw [segments, breakDelimiter?_append _ (clear_laidOut hds hsettings hline)]
      simp only [hfree hequations, Option.isSome_none, Bool.false_eq_true, if_false]
    · rw [Overrides.parse, Overrides.directives_laidOut hds hsettings]
  | plain hequations =>
    refine ⟨none, source, ?_, rfl, lines_laidOut hls hequations⟩
    rw [segments, hfree hequations]

end Source

end GraphBlock
