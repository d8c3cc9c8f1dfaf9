import GraphBlock.Text.Basic
import Mathlib.Data.List.Induction
import Mathlib.Data.List.Infix

/-!
Replacing what stands in a text. A pair that was replaced is gone, replacements of pairs that cannot
share a character commute, and a mark that stands for a pair is read back as the pair where the text
had no such mark of its own.
-/

namespace GraphBlock.Text

variable {a b c m x y : Char} {body new old t u : Text}

/-- Replaces `old` from left to right, once a number of characters that were read already are
passed. -/
def replaceAfter (old new : Text) : Nat → Text → Text
  | _, [] => []
  | passed + 1, _ :: t => replaceAfter old new passed t
  | 0, c :: t =>
    if old.isPrefixOf (c :: t) then new ++ replaceAfter old new (old.length - 1) t
    else c :: replaceAfter old new 0 t

def replace (old new t : Text) : Text := replaceAfter old new 0 t

theorem replaceAfter_length (u t : Text) :
    replaceAfter old new u.length (u ++ t) = replace old new t := by
  induction u with
  | nil => rfl
  | cons c u ih => exact ih

theorem replace_append (hold : old ≠ []) (t : Text) :
    replace old new (old ++ t) = new ++ replace old new t := by
  obtain ⟨m, body, rfl⟩ := List.exists_cons_of_ne_nil hold
  have hprefix : (m :: body).isPrefixOf (m :: (body ++ t)) = true :=
    List.isPrefixOf_iff_prefix.mpr (List.prefix_append (m :: body) t)
  rw [List.cons_append, replace, replaceAfter, if_pos hprefix]
  exact congrArg (new ++ ·) (replaceAfter_length body t)

theorem replace_cons (h : ¬ old <+: c :: t) :
    replace old new (c :: t) = c :: replace old new t := by
  have hprefix : ¬ old.isPrefixOf (c :: t) = true := mt List.isPrefixOf_iff_prefix.mp h
  rw [replace, replaceAfter, if_neg hprefix, replace]

theorem singleton_prefix_iff : [y] <+: t ↔ y ∈ t.head? := by
  cases t with
  | nil => simp
  | cons d t => simp [List.cons_prefix_cons, eq_comm]

/-- Induction along a text from one pair to the next. -/
theorem pair_induction (a b : Char) {P : Text → Prop} (nil : P [])
    (pair : ∀ t, P t → P (a :: b :: t))
    (cons : ∀ c t, (c = a → b ∉ t.head?) → P t → P (c :: t)) (t : Text) : P t := by
  induction t using List.twoStepInduction with
  | nil => exact nil
  | singleton c => exact cons c [] (by simp) nil
  | cons_cons c d t iht ihdt =>
    by_cases h : c = a ∧ d = b
    · obtain ⟨rfl, rfl⟩ := h
      exact pair t iht
    · exact cons c (d :: t) (fun hc hb => h ⟨hc, Option.some.inj hb⟩) (ihdt d)

theorem replacePair_pair (t : Text) :
    replacePair a b new (a :: b :: t) = new ++ replacePair a b new t := by
  rw [replacePair, if_pos ⟨rfl, rfl⟩]

theorem replacePair_cons (h : c = a → b ∉ t.head?) :
    replacePair a b new (c :: t) = c :: replacePair a b new t := by
  cases t with
  | nil => rfl
  | cons d t =>
    rw [replacePair, if_neg]
    exact fun hp => h hp.1 (congrArg some hp.2)

theorem replacePair_append (hu : a ∉ u) (t : Text) :
    replacePair a b new (u ++ t) = u ++ replacePair a b new t := by
  induction u with
  | nil => rfl
  | cons c u ih =>
    rw [List.mem_cons, not_or] at hu
    rw [List.cons_append, replacePair_cons fun h => absurd h.symm hu.1, ih hu.2, List.cons_append]

theorem replacePair_eq_replace (a b : Char) (new t : Text) :
    replacePair a b new t = replace [a, b] new t := by
  induction t using pair_induction a b with
  | nil => rfl
  | pair t ih =>
    rw [replacePair_pair, ih]
    exact (replace_append (List.cons_ne_nil a [b]) t).symm
  | cons c t h ih =>
    have hprefix : ¬ [a, b] <+: c :: t := by
      rw [List.cons_prefix_cons, singleton_prefix_iff]
      exact fun hp => h hp.1.symm hp.2
    rw [replacePair_cons h, replace_cons hprefix, ih]

theorem mem_head?_of_replacePair (hm : m ≠ y) (h : y ∈ (replacePair a b (m :: body) t).head?) :
    y ∈ t.head? := by
  induction t using pair_induction a b with
  | nil => exact h
  | pair t _ =>
    rw [replacePair_pair] at h
    exact absurd (Option.some.inj h) hm
  | cons c t hc _ =>
    rw [replacePair_cons hc] at h
    exact h

theorem replacePair_ne_nil (ht : t ≠ []) : replacePair a b (m :: body) t ≠ [] := by
  induction t using pair_induction a b with
  | nil => exact absurd rfl ht
  | pair t _ =>
    rw [replacePair_pair]
    exact List.cons_ne_nil m _
  | cons c t hc _ =>
    rw [replacePair_cons hc]
    exact List.cons_ne_nil c _

theorem mem_getLast?_of_replacePair (h : y ∈ (replacePair a b (m :: body) t).getLast?) :
    y ∈ (m :: body).getLast? ∨ y ∈ t.getLast? := by
  induction t using pair_induction a b with
  | nil => exact .inr h
  | pair t ih =>
    rw [replacePair_pair, List.getLast?_append] at h
    cases hrest : (replacePair a b (m :: body) t).getLast? with
    | none =>
      rw [hrest] at h
      exact .inl h
    | some z =>
      rw [hrest] at h ih
      refine (ih h).imp_right fun hlast => ?_
      rw [List.getLast?_cons, List.getLast?_cons, hlast]
      rfl
  | cons c t hc ih =>
    rw [replacePair_cons hc, ← List.singleton_append] at h
    change y ∈ (m :: body).getLast? ∨ y ∈ ([c] ++ t).getLast?
    by_cases hnil : t = []
    · rw [hnil] at h ⊢
      exact .inr h
    · rw [List.getLast?_append_of_ne_nil _ (replacePair_ne_nil hnil)] at h
      rw [List.getLast?_append_of_ne_nil _ hnil]
      exact ih h

theorem cons_infix_append_iff (hx : x ∉ u) : x :: old <:+: u ++ t ↔ x :: old <:+: t := by
  induction u with
  | nil => rfl
  | cons c u ih =>
    rw [List.mem_cons, not_or] at hx
    rw [List.cons_append, List.infix_cons_iff, List.cons_prefix_cons, ih hx.2]
    exact or_iff_right fun h => hx.1 h.1

theorem pair_infix_cons_iff : [x, y] <:+: c :: t ↔ x = c ∧ y ∈ t.head? ∨ [x, y] <:+: t := by
  rw [List.infix_cons_iff, List.cons_prefix_cons, singleton_prefix_iff]

/-- A mark that does not touch a pair makes no new one, and leaves none of the pairs that it
replaces. -/
theorem pair_infix_of_replacePair (hm : m ≠ y) (hx : x ∉ m :: body)
    (h : [x, y] <:+: replacePair a b (m :: body) t) : [x, y] <:+: t ∧ ¬ (x = a ∧ y = b) := by
  induction t using pair_induction a b with
  | nil =>
    have hlength : 2 ≤ 0 := h.length_le
    cases hlength
  | pair t ih =>
    rw [replacePair_pair] at h
    obtain ⟨hin, hne⟩ := ih ((cons_infix_append_iff hx).mp h)
    exact ⟨List.infix_cons (List.infix_cons hin), hne⟩
  | cons c t hc ih =>
    rw [replacePair_cons hc] at h
    rcases pair_infix_cons_iff.mp h with ⟨hxc, hy⟩ | hin
    · have hyt : y ∈ t.head? := mem_head?_of_replacePair hm hy
      refine ⟨pair_infix_cons_iff.mpr (.inl ⟨hxc, hyt⟩), fun heq => ?_⟩
      exact hc (hxc.symm.trans heq.1) (heq.2 ▸ hyt)
    · obtain ⟨hin, hne⟩ := ih hin
      exact ⟨List.infix_cons hin, hne⟩

theorem replacePair_comm {a' b' m' : Char} {body' : Text} (hpairs : ¬ (a = a' ∧ b = b'))
    (hba : b ≠ a') (hba' : b' ≠ a) (hmb : m' ≠ b) (hmb' : m ≠ b') (ha : a ∉ m' :: body')
    (ha' : a' ∉ m :: body) (t : Text) :
    replacePair a b (m :: body) (replacePair a' b' (m' :: body') t) =
      replacePair a' b' (m' :: body') (replacePair a b (m :: body) t) := by
  -- a pair in front is passed over by the other replacement, and where there is none neither
  -- replacement makes one: what it could begin with is not what the other pair ends with
  induction t using List.twoStepInduction with
  | nil => rfl
  | singleton c => rfl
  | cons_cons c d t iht ihdt =>
    by_cases hfirst : c = a' ∧ d = b'
    · obtain ⟨rfl, rfl⟩ := hfirst
      have hskip : replacePair a b (m :: body) (c :: d :: t) =
          c :: d :: replacePair a b (m :: body) t := by
        rw [replacePair_cons fun hc hd => hpairs ⟨hc.symm, (Option.some.inj hd).symm⟩,
          replacePair_cons fun hd => absurd hd hba']
      rw [hskip, replacePair_pair, replacePair_pair, replacePair_append ha, iht]
    · by_cases hsecond : c = a ∧ d = b
      · obtain ⟨rfl, rfl⟩ := hsecond
        have hskip : replacePair a' b' (m' :: body') (c :: d :: t) =
            c :: d :: replacePair a' b' (m' :: body') t := by
          rw [replacePair_cons fun hc hd => hpairs ⟨hc, Option.some.inj hd⟩,
            replacePair_cons fun hd => absurd hd hba]
        rw [hskip, replacePair_pair, replacePair_pair, replacePair_append ha', iht]
      · have hstay : c = a → b ∉ (replacePair a' b' (m' :: body') (d :: t)).head? :=
          fun hc hd => hsecond ⟨hc, Option.some.inj (mem_head?_of_replacePair hmb hd)⟩
        have hstay' : c = a' → b' ∉ (replacePair a b (m :: body) (d :: t)).head? :=
          fun hc hd => hfirst ⟨hc, Option.some.inj (mem_head?_of_replacePair hmb' hd)⟩
        rw [replacePair_cons fun hc hd => hfirst ⟨hc, Option.some.inj hd⟩, replacePair_cons hstay,
          replacePair_cons fun hc hd => hsecond ⟨hc, Option.some.inj hd⟩, replacePair_cons hstay',
          ihdt d]

theorem prefix_of_prefix_replacePair (hm : m ∉ u) (h : u <+: replacePair a b (m :: body) t) :
    u <+: t := by
  induction t using pair_induction a b generalizing u with
  | nil => exact h
  | pair t _ =>
    rw [replacePair_pair] at h
    cases u with
    | nil => exact List.nil_prefix
    | cons e u =>
      have heq : e = m := (List.cons_prefix_cons.mp h).1
      exact absurd (heq ▸ List.mem_cons_self) hm
  | cons c t hc ih =>
    rw [replacePair_cons hc] at h
    cases u with
    | nil => exact List.nil_prefix
    | cons e u =>
      rw [List.mem_cons, not_or] at hm
      obtain ⟨heq, hrest⟩ := List.cons_prefix_cons.mp h
      exact List.cons_prefix_cons.mpr ⟨heq, ih hm.2 hrest⟩

theorem infix_of_infix_replacePair (hm : m ∉ u) (hbody : m ∉ body)
    (hother : ∀ w, ¬ u <+: body ++ w) (h : m :: u <:+: replacePair a b (m :: body) t) :
    m :: u <:+: t := by
  induction t using pair_induction a b with
  | nil => exact h
  | pair t ih =>
    rw [replacePair_pair, List.cons_append, List.infix_cons_iff, List.cons_prefix_cons] at h
    rcases h with ⟨-, hprefix⟩ | hin
    · exact absurd hprefix (hother _)
    · exact List.infix_cons (List.infix_cons (ih ((cons_infix_append_iff hbody).mp hin)))
  | cons c t hc ih =>
    rw [replacePair_cons hc, List.infix_cons_iff, List.cons_prefix_cons] at h
    rcases h with ⟨hmc, hprefix⟩ | hin
    · have ht : u <+: t := prefix_of_prefix_replacePair hm hprefix
      exact (List.cons_prefix_cons.mpr ⟨hmc, ht⟩).isInfix
    · exact List.infix_cons (ih hin)

/-- Marks that replaced pairs are read back as the pairs. -/
theorem replace_replacePair (hm : m ∉ body) (h : ¬ m :: body <:+: t) :
    replace (m :: body) [a, b] (replacePair a b (m :: body) t) = t := by
  induction t using pair_induction a b with
  | nil => rfl
  | pair t ih =>
    have htail : ¬ m :: body <:+: t := fun hin => h (List.infix_cons (List.infix_cons hin))
    rw [replacePair_pair, replace_append (List.cons_ne_nil m body), ih htail]
    rfl
  | cons c t hc ih =>
    have hprefix : ¬ m :: body <+: c :: replacePair a b (m :: body) t := by
      rw [List.cons_prefix_cons]
      rintro ⟨hmc, hbody⟩
      have ht : body <+: t := prefix_of_prefix_replacePair hm hbody
      exact h (List.cons_prefix_cons.mpr ⟨hmc, ht⟩).isInfix
    rw [replacePair_cons hc, replace_cons hprefix, ih fun hin => h (List.infix_cons hin)]

end GraphBlock.Text
