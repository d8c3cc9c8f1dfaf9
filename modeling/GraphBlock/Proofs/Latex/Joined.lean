import GraphBlock.Latex
import GraphBlock.Proofs.Source.Segments
import GraphBlock.Proofs.Text.Replace

/-!
Texts that are put together from others. A printer that joins what it has printed, and writes two
asterisks side by side in powers only, writes none once the powers have carets: what is written of
a part is not empty, holds no two of them, and neither begins nor ends with one.
-/

namespace GraphBlock

namespace Text

variable {a b s t : Text}

structure Unstarred (t : Text) : Prop where
  ne_nil : t ≠ []
  star_not_mem : '*' ∉ t

instance : Decidable (Unstarred t) :=
  decidable_of_iff (t ≠ [] ∧ '*' ∉ t) ⟨fun h => ⟨h.1, h.2⟩, fun h => ⟨h.1, h.2⟩⟩

structure Bounded (t : Text) : Prop where
  ne_nil : t ≠ []
  head?_ne : ∀ c ∈ t.head?, c ≠ '*'
  getLast?_ne : ∀ c ∈ t.getLast?, c ≠ '*'

/-- A text that single asterisks can stand beside without there being two. -/
structure Joins (t : Text) : Prop extends Bounded t where
  single : ¬ ['*', '*'] <:+: t

theorem Bounded.between (ha : Bounded a) (hb : Bounded b) (s : Text) : Bounded (a ++ s ++ b) where
  ne_nil := List.append_ne_nil_of_right_ne_nil _ hb.ne_nil
  head?_ne := by
    rw [List.append_assoc, List.head?_append_of_ne_nil _ ha.ne_nil]
    exact ha.head?_ne
  getLast?_ne := by
    rw [List.getLast?_append_of_ne_nil _ hb.ne_nil]
    exact hb.getLast?_ne

theorem Bounded.append (ha : Bounded a) (hb : Bounded b) : Bounded (a ++ b) := by
  have h := ha.between hb []
  rwa [List.append_nil] at h

theorem Unstarred.append (ha : Unstarred a) (hb : Unstarred b) : Unstarred (a ++ b) where
  ne_nil := List.append_ne_nil_of_left_ne_nil ha.ne_nil b
  star_not_mem h := (List.mem_append.mp h).elim ha.star_not_mem hb.star_not_mem

theorem Unstarred.joins (ht : Unstarred t) : Joins t where
  ne_nil := ht.ne_nil
  head?_ne := fun _ hc heq => ht.star_not_mem (heq ▸ List.mem_of_mem_head? hc)
  getLast?_ne := fun _ hc heq => ht.star_not_mem (heq ▸ List.mem_of_getLast? hc)
  single := fun h => ht.star_not_mem (h.subset List.mem_cons_self)

theorem single_append (ha : Joins a) (hb : ¬ ['*', '*'] <:+: b) : ¬ ['*', '*'] <:+: a ++ b := by
  have hlast : ∀ c ∈ a.getLast?, c ∉ ['*', '*'] := by
    intro c hc
    simpa using ha.getLast?_ne c hc
  rw [Source.infix_append_iff_of_getLast hlast]
  exact not_or.mpr ⟨ha.single, hb⟩

theorem Joins.append (ha : Joins a) (hb : Joins b) : Joins (a ++ b) :=
  ⟨ha.toBounded.append hb.toBounded, single_append ha hb.single⟩

theorem Joins.times (ha : Joins a) (hb : Joins b) : Joins (a ++ ['*'] ++ b) := by
  refine ⟨ha.toBounded.between hb.toBounded _, ?_⟩
  rw [List.append_assoc]
  apply single_append ha
  rw [List.singleton_append, pair_infix_cons_iff]
  rintro (⟨-, h⟩ | h)
  · exact hb.head?_ne '*' h rfl
  · exact hb.single h

theorem Bounded.unsigned {c : Char} (ha : Unstarred a) (ht : Bounded (c :: t)) :
    Bounded (a ++ t) := by
  have hbounded := ha.joins.toBounded
  have hne := ha.ne_nil
  cases t with
  | nil =>
    rw [List.append_nil]
    exact hbounded
  | cons d t =>
    refine ⟨List.append_ne_nil_of_left_ne_nil hne _, ?_, ?_⟩
    · rw [List.head?_append_of_ne_nil _ hne]
      exact hbounded.head?_ne
    · rw [List.getLast?_append_of_ne_nil _ (List.cons_ne_nil d t)]
      exact ht.getLast?_ne

theorem Joins.unsigned {c : Char} (ha : Unstarred a) (ht : Joins (c :: t)) : Joins (a ++ t) :=
  ⟨.unsigned ha ht.toBounded, single_append ha.joins
    fun h => ht.single (h.trans (List.suffix_cons c t).isInfix)⟩

theorem Bounded.joins_replacePair (ht : Bounded t) : Joins (replacePair '*' '*' ['^'] t) where
  ne_nil := replacePair_ne_nil ht.ne_nil
  head?_ne := by
    rintro c hc rfl
    exact ht.head?_ne '*' (mem_head?_of_replacePair (by decide) hc) rfl
  getLast?_ne := by
    rintro c hc rfl
    rcases mem_getLast?_of_replacePair hc with h | h
    · cases h
    · exact ht.getLast?_ne '*' h rfl
  single := fun h => (pair_infix_of_replacePair (by decide) (by decide) h).2 ⟨rfl, rfl⟩

end Text

open Text

namespace Latex

/-- A text that is joined from printed ones and from fixed texts without asterisks, of which two
may have a separator between them. A printed text may have its minus sign written apart. -/
inductive Joined (separators : List Text) (printed : Text → Prop) : Text → Prop
  | printed {t : Text} (h : printed t) : Joined separators printed t
  | unsigned {a t : Text} (ha : Unstarred a) (h : printed ('-' :: t)) :
      Joined separators printed (a ++ t)
  | fixed {t : Text} (ht : Unstarred t) : Joined separators printed t
  | append {a b : Text} (ha : Joined separators printed a) (hb : Joined separators printed b) :
      Joined separators printed (a ++ b)
  | separated {a b s : Text} (ha : Joined separators printed a) (hs : s ∈ separators)
      (hb : Joined separators printed b) : Joined separators printed (a ++ s ++ b)

variable {separators : List Text} {printed : Text → Prop} {t : Text}

theorem Joined.bounded (h : Joined separators printed t) (hprinted : ∀ u, printed u → Bounded u) :
    Bounded t := by
  induction h with
  | printed h => exact hprinted _ h
  | unsigned ha h => exact .unsigned ha (hprinted _ h)
  | fixed ht => exact ht.joins.toBounded
  | append _ _ iha ihb => exact iha.append ihb
  | separated _ _ _ iha ihb => exact iha.between ihb _

theorem Joined.joins (h : Joined [['*']] printed t) (hprinted : ∀ u, printed u → Joins u) :
    Joins t := by
  induction h with
  | printed h => exact hprinted _ h
  | unsigned ha h => exact .unsigned ha (hprinted _ h)
  | fixed ht => exact ht.joins
  | append _ _ iha ihb => exact iha.append ihb
  | separated _ hs _ iha ihb =>
    rw [List.mem_singleton.mp hs]
    exact iha.times ihb

variable {S : Signature}

def Expr.Named (e : Expr S) : Prop := ∀ name ∈ e.symbols, Unstarred name

instance (e : Expr S) : Decidable e.Named :=
  inferInstanceAs (Decidable (∀ name ∈ e.symbols, Unstarred name))

namespace Printer

variable {p : Printer S}

/-- What is relied on of a printer: a symbol is written as its name, and every other method joins
what it has printed, as long as none of that is empty. Two asterisks side by side are written by the
method for powers alone. -/
structure OnlyJoins (p : Printer S) : Prop where
  symbol : ∀ level name print, p.other level (.symbol name) print = name
  power : ∀ level base exponent print, (∀ part, print part ≠ []) →
    Joined [['*'], ['*', '*']] (fun t => ∃ part, print part = t) (p.power level base exponent print)
  other : ∀ level e print, (∀ name, e ≠ .symbol name) →
    (∀ base exponent, e ≠ .power base exponent) → (∀ part, print part ≠ []) →
    Joined [['*']] (fun t => ∃ part, print part = t) (p.other level e print)

theorem print_power (level : Nat) (base exponent : Expr S) :
    p.print level (.power base exponent) =
      p.power level base exponent fun part => p.print (level + 1) part.expr := by
  rw [print]

theorem print_other (level : Nat) {e : Expr S} (he : ∀ base exponent, e ≠ .power base exponent) :
    p.print level e = p.other level e fun part => p.print (level + 1) part.expr := by
  cases e with
  | power base exponent => exact absurd rfl (he base exponent)
  | _ =>
    rw [print]
    exact he

/-- By induction on the size of the expression: all that a method has printed joins already. -/
theorem joins_print_withCarets (hp : p.OnlyJoins) (level : Nat) (e : Expr S) (he : e.Named) :
    Joins (p.withCarets.print level e) := by
  induction hsize : e.size using Nat.strong_induction_on generalizing level e with
  | _ n ih =>
    have hpart : ∀ part : e.Part, Joins (p.withCarets.print (level + 1) part.expr) := by
      intro part
      refine ih _ (hsize ▸ part.size_lt) (level + 1) _ ?_ rfl
      exact fun name hname => he name (part.symbols_subset hname)
    have hne : ∀ part : e.Part, p.withCarets.print (level + 1) part.expr ≠ [] :=
      fun part => (hpart part).ne_nil
    have hprinted : ∀ t, (∃ part : e.Part, p.withCarets.print (level + 1) part.expr = t) →
        Joins t := by
      rintro t ⟨part, rfl⟩
      exact hpart part
    cases e with
    | power base exponent =>
      rw [print_power]
      -- only the ends of what is written are known here; the carets take care of the rest
      have hwritten := hp.power level base exponent _ hne
      exact (hwritten.bounded fun t ht => (hprinted t ht).toBounded).joins_replacePair
    | symbol name =>
      have hwritten : p.withCarets.print level (.symbol name) = name := by
        rw [print_other level (by simp)]
        exact hp.symbol level name _
      rw [hwritten]
      exact (he name List.mem_cons_self).joins
    | _ =>
      rw [print_other level (by simp)]
      exact (hp.other level _ _ (by simp) (by simp) hne).joins hprinted

end Printer

end Latex

end GraphBlock
