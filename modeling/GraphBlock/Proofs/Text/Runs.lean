import GraphBlock.Proofs.Text.Layout

/-!
Splitting at runs of delimiters. A run leaves no piece where splitting at each delimiter leaves
blank ones, and blank pieces hold no part, so both ways of splitting find the same parts.
-/

namespace GraphBlock.Text

variable {isDelimiter : Char → Bool} {p run t : Text} {ps : List Text}

/-- The pieces of a text between its runs of delimiters, each run as long as can be. -/
inductive BetweenRuns (isDelimiter : Char → Bool) : List Text → Text → Prop
  | last {p : Text} (hp : ∀ c ∈ p, isDelimiter c = false) : BetweenRuns isDelimiter [p] p
  | run {ps : List Text} {p run t : Text} (hp : ∀ c ∈ p, isDelimiter c = false) (hne : run ≠ [])
      (hrun : ∀ c ∈ run, isDelimiter c = true) (ht : ∀ c ∈ t.head?, isDelimiter c = false)
      (rest : BetweenRuns isDelimiter ps t) : BetweenRuns isDelimiter (p :: ps) (p ++ run ++ t)

theorem exists_betweenRuns (isDelimiter : Char → Bool) (t : Text) :
    ∃ ps, BetweenRuns isDelimiter ps t := by
  induction t with
  | nil => exact ⟨[[]], .last (by simp)⟩
  | cons c t ih =>
    obtain ⟨ps, h⟩ := ih
    cases hc : isDelimiter c with
    | false =>
      cases h with
      | last hp => exact ⟨[c :: t], .last (List.forall_mem_cons.mpr ⟨hc, hp⟩)⟩
      | @run ps p run t hp hne hrun ht rest =>
        exact ⟨(c :: p) :: ps, .run (List.forall_mem_cons.mpr ⟨hc, hp⟩) hne hrun ht rest⟩
    | true =>
      have hone : ∀ d ∈ [c], isDelimiter d = true := by simpa using hc
      cases h with
      | last hp =>
        have hhead : ∀ d ∈ t.head?, isDelimiter d = false :=
          fun d hd => hp d (List.mem_of_mem_head? hd)
        exact ⟨[[], t], .run (p := []) (by simp) (by simp) hone hhead (.last hp)⟩
      | @run ps p run t hp hne hrun ht rest =>
        cases p with
        | nil =>
          -- the character only makes the first run longer
          have hlonger : ∀ d ∈ c :: run, isDelimiter d = true :=
            List.forall_mem_cons.mpr ⟨hc, hrun⟩
          exact ⟨[] :: ps, .run (p := []) hp (by simp) hlonger ht rest⟩
        | cons d p =>
          have hhead : ∀ e ∈ (d :: p ++ run ++ t).head?, isDelimiter e = false := by
            rintro e ⟨⟩
            exact hp d List.mem_cons_self
          exact ⟨[] :: (d :: p) :: ps, .run (p := []) (by simp) (by simp) hone hhead
            (.run hp hne hrun ht rest)⟩

theorem parts_run_append (hrun : ∀ c ∈ run, isDelimiter c = true) (t : Text) :
    parts isDelimiter (run ++ t) = parts isDelimiter t := by
  induction run with
  | nil => rfl
  | cons c run ih =>
    obtain ⟨hc, hrun⟩ := List.forall_mem_cons.mp hrun
    calc parts isDelimiter ([] ++ c :: (run ++ t))
        = parts isDelimiter [] ++ parts isDelimiter (run ++ t) := parts_append [] _ hc
      _ = parts isDelimiter t := by rw [ih hrun]; rfl

/-- The parts of a text are the trimmed pieces between runs that are not blank. -/
theorem BetweenRuns.parts_eq (h : BetweenRuns isDelimiter ps t) :
    parts isDelimiter t = (ps.map trim).filter (!·.isEmpty) := by
  induction h with
  | last hp => rw [parts, Pieces.cut_eq_last hp, Pieces.toList]
  | @run ps p run t hp hne hrun _ _ ih =>
    obtain ⟨c, run, rfl⟩ := List.exists_cons_of_ne_nil hne
    obtain ⟨hc, hrun⟩ := List.forall_mem_cons.mp hrun
    rw [List.append_assoc, List.cons_append, parts, Pieces.cut_append_cons _ hp hc, Pieces.toList,
      List.map_cons, List.map_cons, List.filter_cons, List.filter_cons, ← ih,
      ← parts_run_append hrun t, parts]

end GraphBlock.Text
