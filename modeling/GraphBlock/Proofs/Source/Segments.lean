import GraphBlock.Proofs.Text.Pieces
import GraphBlock.Source
import Mathlib.Data.List.Infix

namespace GraphBlock.Source

theorem infix_append_iff_of_getLast {l a b : Text} (h : ∀ c ∈ a.getLast?, c ∉ l) :
    l <:+: a ++ b ↔ l <:+: a ∨ l <:+: b := by
  rw [List.infix_append_iff_ne_nil]
  constructor
  · rintro (ha | hb | ⟨x, y, hx, -, rfl, hsuffix, -⟩)
    · exact .inl ha
    · exact .inr hb
    · have hlast : x.getLast hx ∈ a.getLast? := by
        rw [Option.mem_def, List.getLast?_eq_getLast_of_ne_nil (hsuffix.ne_nil hx),
          hsuffix.getLast hx]
      exact absurd (List.mem_append_left y (List.getLast_mem hx)) (h _ hlast)
  · rintro (ha | hb)
    · exact .inl ha
    · exact .inr (.inl hb)

theorem infix_append_iff_of_head {l a b : Text} (h : ∀ c ∈ b.head?, c ∉ l) :
    l <:+: a ++ b ↔ l <:+: a ∨ l <:+: b := by
  rw [List.infix_append_iff_ne_nil]
  constructor
  · rintro (ha | hb | ⟨x, y, -, hy, rfl, -, hprefix⟩)
    · exact .inl ha
    · exact .inr hb
    · have hhead : y.head hy ∈ b.head? := by
        obtain ⟨z, rfl⟩ := hprefix
        rw [List.head?_append_of_ne_nil _ hy, Option.mem_def, List.head?_eq_some_head hy]
      exact absurd (List.mem_append_right x (List.head_mem hy)) (h _ hhead)
  · rintro (ha | hb)
    · exact .inl ha
    · exact .inr (.inl hb)

theorem mem_delimiter {c : Char} : c ∈ delimiter ↔ c = '-' := by
  simp [delimiter_eq]

theorem delimiter_infix_cons_iff {a b : Text} {c : Char} (h : c ≠ '-') :
    delimiter <:+: a ++ c :: b ↔ delimiter <:+: a ∨ delimiter <:+: b := by
  have hc : ∀ d ∈ (c :: b).head?, d ∉ delimiter := by
    rintro d ⟨⟩
    simpa [mem_delimiter] using h
  rw [infix_append_iff_of_head hc]
  have hcons : delimiter <:+: [c] ++ b ↔ delimiter <:+: [c] ∨ delimiter <:+: b :=
    infix_append_iff_of_getLast (by simpa [mem_delimiter] using h)
  have hone : ¬ delimiter <:+: [c] := by
    intro hin
    have := hin.length_le
    simp [delimiter_eq] at this
  simpa [hone] using or_congr_right hcons

/-- Joining texts by a character that is no dash makes no delimiter. -/
theorem not_infix_joined {d : Char} (hd : d ≠ '-') {p : Text} {ps : List Text}
    (hp : ¬ delimiter <:+: p) (hps : ∀ q ∈ ps, ¬ delimiter <:+: q) :
    ¬ delimiter <:+: p ++ ps.flatMap fun q => d :: q := by
  induction ps generalizing p with
  | nil =>
    rw [List.flatMap_nil, List.append_nil]
    exact hp
  | cons q ps ih =>
    rw [List.flatMap_cons, List.cons_append, delimiter_infix_cons_iff hd, not_or]
    exact ⟨hp, ih (hps q List.mem_cons_self) fun r hr => hps r (List.mem_cons_of_mem _ hr)⟩

theorem not_infix_text {isDelimiter : Char → Bool} {ps : Pieces} (hdash : isDelimiter '-' = false)
    (hps : ps.Proper isDelimiter) (h : ∀ p ∈ ps.toList, ¬ delimiter <:+: p) :
    ¬ delimiter <:+: ps.text := by
  induction ps with
  | last p => exact h p List.mem_cons_self
  | closed p d rest ih =>
    obtain ⟨-, hd, hrest⟩ := hps
    obtain ⟨hp, hpieces⟩ := List.forall_mem_cons.mp h
    have hne : d ≠ '-' := by
      rintro rfl
      rw [hdash] at hd
      cases hd
    rw [Pieces.text, delimiter_infix_cons_iff hne, not_or]
    exact ⟨hp, ih hrest hpieces⟩

/-- No delimiter begins in the text, also where two more dashes follow it. -/
def Clear (t : Text) : Prop := ¬ delimiter <:+: t ++ ['-', '-']

theorem Clear.not_infix {t : Text} (h : Clear t) : ¬ delimiter <:+: t :=
  fun hin => h (List.infix_append_of_infix_left hin)

theorem clear_nil : Clear [] := by
  intro h
  have := h.length_le
  simp [delimiter_eq] at this

theorem clear_lines {ts : List Text} (h : ∀ t ∈ ts, ¬ delimiter <:+: t) :
    Clear (ts.flatMap fun t => t ++ ['\n']) := by
  induction ts with
  | nil => exact clear_nil
  | cons t ts ih =>
    obtain ⟨ht, hts⟩ := List.forall_mem_cons.mp h
    rw [Clear, List.flatMap_cons, List.append_assoc, List.append_assoc, List.singleton_append,
      delimiter_infix_cons_iff (by decide), not_or]
    exact ⟨ht, ih hts⟩

theorem breakDelimiter?_cons {c : Char} {t : Text} (h : ¬ delimiter <+: c :: t) :
    breakDelimiter? (c :: t) = (breakDelimiter? t).map fun (a, b) => (c :: a, b) := by
  rw [breakDelimiter?.eq_2]
  rintro u rfl rfl
  exact h ⟨u, rfl⟩

theorem breakDelimiter?_eq_none_iff {t : Text} :
    breakDelimiter? t = none ↔ ¬ delimiter <:+: t := by
  induction t with
  | nil => exact iff_of_true rfl (by decide)
  | cons c t ih =>
    rw [List.infix_cons_iff, not_or]
    by_cases hpre : delimiter <+: c :: t
    · obtain ⟨u, hu⟩ := id hpre
      rw [← hu]
      exact iff_of_false (Option.some_ne_none ([], u)) fun h => h.1 ⟨u, rfl⟩
    · rw [breakDelimiter?_cons hpre, Option.map_eq_none_iff, ih, and_iff_right hpre]

theorem breakDelimiter?_append {a : Text} (b : Text) (h : Clear a) :
    breakDelimiter? (a ++ delimiter ++ b) = some (a, b) := by
  induction a with
  | nil => rfl
  | cons c a ih =>
    have htail : Clear a := fun hin => h (List.infix_cons hin)
    have hno : ¬ delimiter <+: c :: (a ++ delimiter ++ b) := by
      intro hpre
      have hfirst : delimiter <+: c :: a ++ ['-', '-'] := by
        refine List.prefix_of_prefix_length_le hpre ⟨'-' :: b, ?_⟩ ?_
        · simp [delimiter_eq]
        · simp [delimiter_eq]
      exact h hfirst.isInfix
    rw [List.cons_append, List.cons_append, breakDelimiter?_cons hno, ih htail]
    rfl

theorem breakDelimiter?_eq_some_iff {t a b : Text} :
    breakDelimiter? t = some (a, b) ↔ t = a ++ delimiter ++ b ∧ Clear a := by
  constructor
  · intro h
    induction t generalizing a with
    | nil => cases h
    | cons c t ih =>
      by_cases hpre : delimiter <+: c :: t
      · obtain ⟨u, hu⟩ := hpre
        rw [← hu] at h ⊢
        cases h
        exact ⟨rfl, clear_nil⟩
      · rw [breakDelimiter?_cons hpre] at h
        obtain ⟨⟨a', b'⟩, hbreak, hcons⟩ := Option.map_eq_some_iff.mp h
        cases hcons
        obtain ⟨rfl, hclear⟩ := ih hbreak
        refine ⟨rfl, fun hin => ?_⟩
        rcases List.infix_cons_iff.mp hin with hfirst | hin
        · -- the dashes of `a' ++ "--"` are also the first ones of the whole text
          exact hpre (hfirst.trans ⟨'-' :: b, by simp [delimiter_eq]⟩)
        · exact hclear hin
  · rintro ⟨rfl, hclear⟩
    exact breakDelimiter?_append b hclear

theorem length_le_of_breakDelimiter? {t x y a : Text} (h : breakDelimiter? t = some (x, y))
    (ha : a ++ delimiter <+: t) : x.length ≤ a.length := by
  obtain ⟨ht, hclear⟩ := breakDelimiter?_eq_some_iff.mp h
  have hdelimiter : delimiter.length = 3 := rfl
  by_contra hlonger
  have hpre : a ++ delimiter <+: x ++ ['-', '-'] := by
    refine List.prefix_of_prefix_length_le ha ⟨'-' :: y, by rw [ht]; simp [delimiter_eq]⟩ ?_
    simp only [List.length_append, List.length_cons, List.length_nil, hdelimiter]
    omega
  exact hclear ((List.suffix_append a delimiter).isInfix.trans hpre.isInfix)

/-- A text has more than two segments where the delimiter stands twice without overlap. -/
theorem segments_eq_error_iff {source : Text} {e : GraphError} :
    segments source = .error e ↔ e = .tooManySegments ∧
      ∃ a b c, source = a ++ delimiter ++ b ++ delimiter ++ c := by
  constructor
  · intro h
    rw [segments] at h
    split at h
    · cases h
    · next x y hbreak =>
      split at h
      · next hagain =>
        cases h
        obtain ⟨⟨b, c⟩, hagain⟩ := Option.isSome_iff_exists.mp hagain
        obtain ⟨hsource, -⟩ := breakDelimiter?_eq_some_iff.mp hbreak
        obtain ⟨hy, -⟩ := breakDelimiter?_eq_some_iff.mp hagain
        exact ⟨rfl, x, b, c, by rw [hsource, hy]; simp only [List.append_assoc]⟩
      · cases h
  · rintro ⟨rfl, a, b, c, hsource⟩
    have hleft : a ++ delimiter ++ b <+: source :=
      ⟨delimiter ++ c, by rw [hsource, List.append_assoc (a ++ delimiter ++ b)]⟩
    cases hbreak : breakDelimiter? source with
    | none =>
      refine absurd ?_ (breakDelimiter?_eq_none_iff.mp hbreak)
      exact ⟨a, b ++ delimiter ++ c, by rw [hsource]; simp only [List.append_assoc]⟩
    | some cut =>
      obtain ⟨x, y⟩ := cut
      have hxy := (breakDelimiter?_eq_some_iff.mp hbreak).1
      -- the delimiter that is found may overlap the first of the two, but not the second
      have hfirst := length_le_of_breakDelimiter? hbreak ((List.prefix_append _ b).trans hleft)
      have hpre : x ++ delimiter <+: a ++ delimiter ++ b := by
        refine List.prefix_of_prefix_length_le ⟨y, hxy.symm⟩ hleft ?_
        simp only [List.length_append]
        omega
      obtain ⟨w, hw⟩ := hpre
      have hy : y = w ++ delimiter ++ c := by
        have heq : x ++ delimiter ++ y = x ++ delimiter ++ (w ++ delimiter ++ c) := by
          rw [← hxy, hsource, ← hw]
          simp only [List.append_assoc]
        exact List.append_cancel_left heq
      have hagain : (breakDelimiter? y).isSome = true := by
        rw [Option.isSome_iff_ne_none, ne_eq, breakDelimiter?_eq_none_iff, not_not]
        exact ⟨w, c, hy.symm⟩
      simp only [segments, hbreak, hagain, if_true]

end GraphBlock.Source
