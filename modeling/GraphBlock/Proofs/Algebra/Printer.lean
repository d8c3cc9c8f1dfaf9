import GraphBlock.Algebra.Printer
import GraphBlock.Proofs.Latex.Joined
import GraphBlock.Proofs.Number.Digits
import GraphBlock.Proofs.Text.Trim

namespace GraphBlock.Algebra

open Text (Unstarred)
open GraphBlock.Latex (Joined)

/-! Numbers are written without asterisks. -/

theorem star_not_mem_natText (n : Nat) : '*' ∉ natText n := by
  intro h
  cases isDigit_natText '*' h

theorem unstarred_natText (n : Nat) : Unstarred (natText n) :=
  ⟨natText_ne_nil, star_not_mem_natText n⟩

theorem unstarred_intText (n : Int) : Unstarred (intText n) := by
  cases n with
  | ofNat n => exact unstarred_natText n
  | negSucc n =>
    have hminus : Unstarred ['-'] := by decide
    exact hminus.append (unstarred_natText (n + 1))

theorem star_not_mem_replicate (n : Nat) : '*' ∉ List.replicate n '0' := by
  intro h
  cases List.eq_of_mem_replicate h

theorem star_not_mem_padded (width n : Nat) : '*' ∉ Layout.padded width n := by
  rw [Layout.padded, List.mem_append, not_or]
  exact ⟨star_not_mem_replicate _, star_not_mem_natText n⟩

theorem unstarred_write (l : Layout) {digits : Text} (hdigits : '*' ∉ digits) (e : Int) :
    Unstarred (l.write digits e) := by
  have htake : ∀ n, '*' ∉ digits.take n := fun n h => hdigits (List.mem_of_mem_take h)
  have hdrop : ∀ n, '*' ∉ digits.drop n := fun n h => hdigits (List.mem_of_mem_drop h)
  rw [Layout.write]
  split
  · refine ⟨by simp, ?_⟩
    have hsign : ('*' : Char) ≠ if e < 0 then '-' else '+' := by split <;> decide
    simp only [List.mem_append, List.mem_cons, not_or]
    refine ⟨⟨htake 1, ?_⟩, by decide, hsign, star_not_mem_padded _ _⟩
    split
    · split <;> decide
    · rw [List.mem_cons, not_or]
      exact ⟨by decide, hdrop 1⟩
  · split
    · refine ⟨by simp, ?_⟩
      simp only [List.mem_append, not_or]
      exact ⟨⟨by decide, star_not_mem_replicate _⟩, hdigits⟩
    · refine ⟨by simp, ?_⟩
      simp only [List.mem_append, List.mem_cons, not_or]
      refine ⟨⟨htake _, star_not_mem_replicate _⟩, by decide, ?_⟩
      split
      · decide
      · exact hdrop _

theorem star_not_mem_leadingDigits (count num den : Nat) :
    '*' ∉ (Scalar.leadingDigits count num den).1 := by
  rw [Scalar.leadingDigits]
  split <;> exact star_not_mem_natText _

theorem unstarred_decimalText (alone : Bool) (q : Rat) (precision : Nat) :
    Unstarred (Scalar.decimalText alone q precision) := by
  rw [Scalar.decimalText]
  split
  · decide
  · have hsigned : ∀ (l : Layout) (digits : Text) (e : Int), '*' ∉ digits →
        Unstarred ((if q < 0 then "-" else "" : Text) ++ l.write digits e) := by
      intro l digits e hdigits
      have hwrite := unstarred_write l hdigits e
      have hminus : Unstarred ['-'] := by decide
      split
      · exact hminus.append hwrite
      · exact hwrite
    have hdigits := star_not_mem_leadingDigits (digitsOfPrecision precision) q.num.natAbs q.den
    have hshown : '*' ∉ if alone then
        (Scalar.leadingDigits (digitsOfPrecision precision) q.num.natAbs q.den).1
      else Text.trimBy (· == '0')
        (Scalar.leadingDigits (digitsOfPrecision precision) q.num.natAbs q.den).1 := by
      split
      · exact hdigits
      · exact fun h => hdigits ((Text.trimBy_isInfix _ _).subset h)
    exact hsigned _ _ _ hshown

theorem unstarred_text (c : Scalar) : Unstarred c.text := by
  cases c with
  | exact q =>
    rw [Scalar.text]
    split
    · exact unstarred_intText q.num
    · have hslash : Unstarred ['/'] := by decide
      exact (unstarred_intText q.num).append (hslash.append (unstarred_natText q.den))
  | decimal q precision => exact unstarred_decimalText false q precision
  | infinite negative => cases negative <;> decide
  | unbounded | undefined => decide

namespace Printer

theorem unstarred_atomText (alone : Bool) (a : Atom) : Unstarred (atomText alone a) := by
  rw [atomText.eq_def]
  split
  · exact unstarred_decimalText alone _ _
  · exact unstarred_text _
  all_goals decide

variable {separators : List Text} {printed : Text → Prop} {t : Text} {ts : List Text}

theorem joined_grouped (ht : Joined separators printed t) :
    Joined separators printed (grouped t) :=
  .append (.append (.fixed (t := ['(']) (by decide)) ht)
    (.fixed (by decide))

theorem joined_within {e : Tree} (print : e.Part → Text) (level : Nat) (part : e.Part) :
    Joined separators (fun t => ∃ part, print part = t) (within print level part) := by
  rw [within]
  split
  · exact joined_grouped (.printed ⟨part, rfl⟩)
  · exact .printed ⟨part, rfl⟩

theorem joined_joined {separator : Text} (hne : ts ≠ [])
    (hts : ∀ t ∈ ts, Joined separators printed t)
    (hseparator : separator ∈ separators ∨ Unstarred separator) :
    Joined separators printed (joined separator ts) := by
  induction ts with
  | nil => exact absurd rfl hne
  | cons t ts ih =>
    obtain ⟨ht, hts⟩ := List.forall_mem_cons.mp hts
    by_cases hrest : ts = []
    · rw [hrest, joined, List.intercalate_singleton]
      exact ht
    · rw [joined, List.intercalate_cons_of_ne_nil hrest]
      rcases hseparator with h | h
      · exact .separated ht h (ih hrest hts)
      · exact .append (.append ht (.fixed h)) (ih hrest hts)

theorem joined_quotient {above below : List Text}
    (habove : ∀ t ∈ above, Joined [['*']] printed t)
    (hbelow : ∀ t ∈ below, Joined [['*']] printed t) :
    Joined [['*']] printed (quotient above below) := by
  have hfactors : ∀ {ts : List Text}, ts ≠ [] → (∀ t ∈ ts, Joined [['*']] printed t) →
      Joined [['*']] printed (joined "*" ts) :=
    fun hne hts => joined_joined hne hts (.inl List.mem_cons_self)
  have hnumerator :
      Joined [['*']] printed (if above.isEmpty then "1" else joined "*" above : Text) := by
    split
    · exact .fixed (by decide)
    · next hne => exact hfactors (by simpa using hne) habove
  match below, hbelow with
  | [], _ => exact hnumerator
  | [t], hbelow =>
    rw [quotient, List.append_cons]
    exact .append (.append hnumerator (.fixed (by decide)))
      (hbelow t List.mem_cons_self)
  | t :: u :: us, hbelow =>
    have hdenominator := hfactors (List.cons_ne_nil t (u :: us)) hbelow
    exact .append (.append (.append hnumerator (.fixed (by decide))) hdenominator)
      (.fixed (by decide))

theorem joined_productText (factors : List Tree)
    (print : (Latex.Expr.product factors).Part → Text) :
    Joined [['*']] (fun t => ∃ part, print part = t) (productText factors print) := by
  unfold productText
  extract_lets level above below
  have habove : ∀ t ∈ above, Joined [['*']] (fun t => ∃ part, print part = t) t := by
    intro t ht
    obtain ⟨s, -, rfl⟩ := List.mem_map.mp ht
    exact joined_within print level _
  have hbelow : ∀ t ∈ below, Joined [['*']] (fun t => ∃ part, print part = t) t := by
    intro t ht
    obtain ⟨s, -, rfl⟩ := List.mem_map.mp ht
    dsimp only
    split
    · exact joined_grouped (.printed ⟨_, rfl⟩)
    · exact joined_within print level _
  have hquotient := joined_quotient habove hbelow
  split
  · exact .append (.fixed (t := ['-']) (by decide)) hquotient
  · exact hquotient

/-- Only what is printed without parentheses can begin with a minus sign. -/
theorem joined_continued_within {e : Tree} (print : e.Part → Text) (level : Nat)
    (part : e.Part) :
    Joined separators (fun t => ∃ part, print part = t) (continued (within print level part)) := by
  rw [continued.eq_def]
  split
  · next rest heq =>
    rw [within] at heq
    split at heq
    · cases heq
    · exact .unsigned (a := " - ") (by decide) ⟨part, heq⟩
  · exact .append (.fixed (by decide)) (joined_within print level part)

theorem joined_append_flatMap {f : Text → Text} (ht : Joined separators printed t)
    (hts : ∀ u ∈ ts, Joined separators printed (f u)) :
    Joined separators printed (t ++ ts.flatMap f) := by
  induction ts generalizing t with
  | nil =>
    rw [List.flatMap_nil, List.append_nil]
    exact ht
  | cons u us ih =>
    obtain ⟨hu, hus⟩ := List.forall_mem_cons.mp hts
    rw [List.flatMap_cons, ← List.append_assoc]
    exact ih (.append ht hu) hus

theorem joined_sumText (terms : List Tree) (print : (Latex.Expr.sum terms).Part → Text) :
    Joined separators (fun t => ∃ part, print part = t) (sumText terms print) := by
  unfold sumText
  extract_lets texts
  have htexts : ∀ t ∈ texts, ∃ part, within print (sumLevel - 1) part = t := by
    intro t ht
    obtain ⟨s, -, rfl⟩ := List.mem_map.mp ht
    exact ⟨_, rfl⟩
  clear_value texts
  cases texts with
  | nil => exact .fixed (by decide)
  | cons t ts =>
    obtain ⟨⟨part, rfl⟩, hts⟩ := List.forall_mem_cons.mp htexts
    refine joined_append_flatMap (joined_within print _ part) ?_
    intro u hu
    obtain ⟨part, rfl⟩ := hts u hu
    exact joined_continued_within print _ part

theorem joined_powerText (base exponent : Tree)
    (print : (Latex.Expr.power base exponent).Part → Text) :
    Joined [['*'], ['*', '*']] (fun t => ∃ part, print part = t)
      (powerText base exponent print) := by
  have hfixed : ∀ {t : Text}, Unstarred t →
      Joined [['*'], ['*', '*']] (fun t => ∃ part, print part = t) t := .fixed
  unfold powerText
  extract_lets base raised
  split
  · exact .append (.append (hfixed (by decide)) (.printed ⟨base, rfl⟩))
      (hfixed (by decide))
  · split
    · exact .append (.append (hfixed (by decide)) (.printed ⟨base, rfl⟩))
        (hfixed (by decide))
    · split
      · exact .append (hfixed (by decide)) (joined_within print powerLevel base)
      · exact .separated (joined_within print powerLevel base)
          (List.mem_cons_of_mem _ List.mem_cons_self) (joined_within print powerLevel raised)

theorem star_not_mem_name (f : Function) : '*' ∉ f.name := by
  cases f with
  | named name => exact name.star_not_mem
  | _ => decide

theorem joined_applicationText (f : Function) (arguments : List Tree)
    (print : (Latex.Expr.apply (S := signature) f arguments).Part → Text) :
    Joined separators (fun t => ∃ part, print part = t) (applicationText f arguments print) := by
  unfold applicationText
  extract_lets texts
  have htexts : ∀ t ∈ texts, Joined separators (fun t => ∃ part, print part = t) t := by
    intro t ht
    obtain ⟨s, -, rfl⟩ := List.mem_map.mp ht
    exact .printed ⟨_, rfl⟩
  have hopen : Unstarred (f.name ++ ['(']) := by
    refine ⟨List.append_ne_nil_of_right_ne_nil _ (by decide), ?_⟩
    rw [List.mem_append, not_or]
    exact ⟨star_not_mem_name f, by decide⟩
  have hclose : Unstarred [')'] := by decide
  rw [List.append_cons]
  by_cases hne : texts = []
  · rw [hne, joined, List.intercalate_nil, List.append_nil]
    exact .append (.fixed hopen) (.fixed hclose)
  · have harguments : Joined separators (fun t => ∃ part, print part = t) (joined ", " texts) :=
      joined_joined hne htexts (.inr (by decide))
    rw [List.append_assoc]
    exact .append (.fixed hopen) (.append harguments (.fixed hclose))

theorem joined_relationText (r : Relation) {left right : Text}
    (hleft : Joined separators printed left) (hright : Joined separators printed right) :
    Joined separators printed (relationText r left right) := by
  have hbetween : ∀ {sign : Text}, Unstarred sign →
      Joined separators printed (left ++ sign ++ right) :=
    fun hsign => .append (.append hleft (.fixed hsign)) hright
  have happlied : ∀ {name : Text}, Unstarred name →
      Joined separators printed (name ++ left ++ ", " ++ right ++ ")") := by
    intro name hname
    exact .append (.append (.append (.append (.fixed hname) hleft)
      (.fixed (by decide))) hright) (.fixed (by decide))
  cases r
  case less | greater | atMost | atLeast => exact hbetween (by decide)
  case equal | unequal => exact happlied (by decide)

end Printer

open Printer

theorem onlyJoins_printer : printer.OnlyJoins where
  symbol _ _ _ := rfl
  power _ base exponent print _ := joined_powerText base exponent print
  other level e print hsymbol hpower _ := by
    cases e with
    | atom a => exact .fixed (unstarred_atomText _ a)
    | symbol name => exact absurd rfl (hsymbol name)
    | sum terms => exact joined_sumText terms print
    | product factors => exact joined_productText factors print
    | power base exponent => exact absurd rfl (hpower base exponent)
    | apply f arguments => exact joined_applicationText f arguments print
    | relation r left right => exact joined_relationText r (.printed ⟨_, rfl⟩) (.printed ⟨_, rfl⟩)

end GraphBlock.Algebra
