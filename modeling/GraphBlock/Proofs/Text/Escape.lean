import GraphBlock.Text.Basic

namespace GraphBlock.Text

variable {written : Char → Text} {undo : Text → Char × Text}

/-- A rest that no character begins tells where a written text ends. -/
theorem flatMap_append_inj (hundo : ∀ c v, undo (written c ++ v) = (c, v)) {t u r s : Text}
    (hr : ∀ c v, r ≠ written c ++ v) (hs : ∀ c v, s ≠ written c ++ v)
    (h : t.flatMap written ++ r = u.flatMap written ++ s) : t = u ∧ r = s := by
  induction t generalizing u with
  | nil =>
    cases u with
    | nil => exact ⟨rfl, h⟩
    | cons d u =>
      rw [List.flatMap_cons, List.append_assoc] at h
      exact absurd h (hr d _)
  | cons c t ih =>
    cases u with
    | nil =>
      rw [List.flatMap_cons, List.append_assoc] at h
      exact absurd h.symm (hs c _)
    | cons d u =>
      rw [List.flatMap_cons, List.flatMap_cons, List.append_assoc, List.append_assoc] at h
      have hnext := congrArg undo h
      rw [hundo, hundo, Prod.mk.injEq] at hnext
      obtain ⟨htu, hrs⟩ := ih hnext.2
      exact ⟨by rw [hnext.1, htu], hrs⟩

end GraphBlock.Text
