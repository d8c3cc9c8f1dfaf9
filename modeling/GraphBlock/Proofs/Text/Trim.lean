import GraphBlock.Text.Basic
import Mathlib.Data.List.DropRight

namespace GraphBlock.Text

variable {p : Char → Bool}

theorem head?_of_dropWhile {t : Text} {c : Char} (h : c ∈ (t.dropWhile p).head?) :
    p c = false := by
  have hd := List.head?_dropWhile_not p t
  rw [Option.mem_def.mp h] at hd
  exact hd

theorem dropWhile_eq_self {t : Text} (h : ∀ c ∈ t.head?, p c = false) : t.dropWhile p = t := by
  cases t with
  | nil => rfl
  | cons c t => simp [h c rfl]

theorem takeWhile_eq_nil {t : Text} (h : ∀ c ∈ t.head?, p c = false) : t.takeWhile p = [] := by
  cases t with
  | nil => rfl
  | cons c t => simp [h c rfl]

theorem dropWhile_run {a t : Text} (ha : ∀ c ∈ a, p c = true) (ht : ∀ c ∈ t.head?, p c = false) :
    (a ++ t).dropWhile p = t := by
  rw [List.dropWhile_append_of_pos ha, dropWhile_eq_self ht]

theorem takeWhile_run {a t : Text} (ha : ∀ c ∈ a, p c = true) (ht : ∀ c ∈ t.head?, p c = false) :
    (a ++ t).takeWhile p = a := by
  rw [List.takeWhile_append_of_pos ha, takeWhile_eq_nil ht, List.append_nil]

theorem trimBy_eq_rdropWhile (p : Char → Bool) (t : Text) :
    trimBy p t = (t.dropWhile p).rdropWhile p := rfl

theorem trimBy_eq_nil_iff {t : Text} : trimBy p t = [] ↔ ∀ c ∈ t, p c = true := by
  rw [trimBy_eq_rdropWhile, List.rdropWhile_eq_nil_iff]
  constructor
  · intro h c hc
    rw [← List.takeWhile_append_dropWhile (p := p) (l := t)] at hc
    rcases List.mem_append.mp hc with hc | hc
    · exact List.mem_takeWhile_imp hc
    · exact h c hc
  · intro h c hc
    exact h c ((List.dropWhile_sublist p).subset hc)

theorem trimBy_eq_self {t : Text} (hd : ∀ c ∈ t.head?, p c = false)
    (tl : ∀ c ∈ t.getLast?, p c = false) : trimBy p t = t := by
  rw [trimBy_eq_rdropWhile, dropWhile_eq_self hd, List.rdropWhile_eq_self_iff]
  intro hne
  simp [tl _ (List.getLast?_eq_getLast_of_ne_nil hne)]

theorem trimBy_eq_self_of_forall {t : Text} (h : ∀ c ∈ t, p c = false) : trimBy p t = t :=
  trimBy_eq_self (fun c hc => h c (List.mem_of_mem_head? hc))
    fun c hc => h c (List.mem_of_getLast? hc)

theorem head?_trimBy {t : Text} {c : Char} (h : c ∈ (trimBy p t).head?) : p c = false := by
  have hpre : trimBy p t <+: t.dropWhile p := List.rdropWhile_prefix p _
  obtain ⟨rest, hrest⟩ := hpre
  apply head?_of_dropWhile (p := p) (t := t)
  rw [← hrest, List.head?_append, Option.mem_def.mp h]
  rfl

theorem getLast?_trimBy {t : Text} {c : Char} (h : c ∈ (trimBy p t).getLast?) : p c = false := by
  have hne : trimBy p t ≠ [] := by
    rintro hnil
    rw [hnil] at h
    cases h
  have hlast := List.rdropWhile_last_not p (t.dropWhile p) hne
  rw [Option.mem_def, List.getLast?_eq_getLast_of_ne_nil hne, Option.some.injEq] at h
  exact Bool.not_eq_true _ ▸ h ▸ hlast

theorem trimBy_pad {a t b : Text} (ha : ∀ c ∈ a, p c = true) (hb : ∀ c ∈ b, p c = true)
    (ht : trimBy p t = t) : trimBy p (a ++ t ++ b) = t := by
  by_cases hne : t = []
  · subst hne
    rw [trimBy_eq_nil_iff]
    simp only [List.append_nil, List.mem_append]
    rintro c (hc | hc)
    · exact ha c hc
    · exact hb c hc
  · have hd : ∀ c ∈ (t ++ b).head?, p c = false := by
      intro c hc
      apply head?_trimBy (p := p) (t := t)
      rw [ht]
      rwa [List.head?_append_of_ne_nil _ hne] at hc
    have tl : t.rdropWhile p = t := by
      rw [List.rdropWhile_eq_self_iff]
      intro h
      have := getLast?_trimBy (p := p) (t := t) (c := t.getLast h)
        (by rw [ht]; exact List.getLast?_eq_getLast_of_ne_nil h)
      simp [this]
    rw [trimBy_eq_rdropWhile, List.append_assoc, dropWhile_run ha hd, List.rdropWhile,
      List.reverse_append, List.dropWhile_append_of_pos (by simpa using hb)]
    exact tl

theorem exists_pad (p : Char → Bool) (t : Text) :
    ∃ a b, (∀ c ∈ a, p c = true) ∧ (∀ c ∈ b, p c = true) ∧ t = a ++ trimBy p t ++ b := by
  refine ⟨t.takeWhile p, (t.dropWhile p).rtakeWhile p, ?_, ?_, ?_⟩
  · exact fun c hc => List.mem_takeWhile_imp hc
  · exact fun c hc => List.mem_rtakeWhile_imp hc
  · rw [List.append_assoc, trimBy_eq_rdropWhile, List.rdropWhile_append_rtakeWhile,
      List.takeWhile_append_dropWhile]

theorem trimBy_isInfix (p : Char → Bool) (t : Text) : trimBy p t <:+: t := by
  obtain ⟨a, b, -, -, ht⟩ := exists_pad p t
  exact ⟨a, b, ht.symm⟩

theorem trimBy_trimBy (p : Char → Bool) (t : Text) : trimBy p (trimBy p t) = trimBy p t :=
  trimBy_eq_self (fun _ => head?_trimBy) (fun _ => getLast?_trimBy)

/-- If trimming leaves no character of the class, then from the first such one on there is no
other. -/
theorem forall_of_trimBy_append {a b : Text} (hne : a ≠ []) (ha : ∀ c ∈ a, p c = false)
    (hb : ∀ c ∈ b.head?, p c = true) (h : ∀ c ∈ trimBy p (a ++ b), p c = false) :
    ∀ c ∈ b, p c = true := by
  obtain ⟨x, y, hx, hy, heq⟩ := exists_pad p (a ++ b)
  have hnil : x = [] := by
    cases x with
    | nil => rfl
    | cons d x =>
      obtain ⟨e, a, rfl⟩ := List.exists_cons_of_ne_nil hne
      injection heq with hed
      have := ha e List.mem_cons_self
      rw [hed, hx d List.mem_cons_self] at this
      cases this
  rw [hnil, List.nil_append] at heq
  rcases List.append_eq_append_iff.mp heq with ⟨z, hz, hrest⟩ | ⟨z, -, hrest⟩
  · cases z with
    | nil =>
      rw [List.nil_append] at hrest
      rw [hrest]
      exact hy
    | cons d z =>
      have hd := h d (by rw [hz]; simp)
      rw [hb d (by rw [hrest]; rfl)] at hd
      cases hd
  · intro c hc
    exact hy c (by rw [hrest]; exact List.mem_append_right _ hc)

theorem trimBy_append {a t b : Text} (ha : ∀ c ∈ a, p c = true) (hb : ∀ c ∈ b, p c = true) :
    trimBy p (a ++ t ++ b) = trimBy p t := by
  obtain ⟨x, y, hx, hy, ht⟩ := exists_pad p t
  have hassoc : a ++ t ++ b = (a ++ x) ++ trimBy p t ++ (y ++ b) := by
    conv_lhs => rw [ht]
    simp only [List.append_assoc]
  rw [hassoc]
  apply trimBy_pad _ _ (trimBy_trimBy p t)
  · intro c hc
    exact (List.mem_append.mp hc).elim (ha c) (hx c)
  · intro c hc
    exact (List.mem_append.mp hc).elim (hy c) (hb c)

theorem trimBy_append_left {a : Text} (t : Text) (ha : ∀ c ∈ a, p c = true) :
    trimBy p (a ++ t) = trimBy p t := by
  have h := trimBy_append (t := t) (b := []) ha (by simp)
  rwa [List.append_nil] at h

theorem trimBy_append_right {b : Text} (t : Text) (hb : ∀ c ∈ b, p c = true) :
    trimBy p (t ++ b) = trimBy p t :=
  trimBy_append (a := []) (by simp) hb

end GraphBlock.Text
