import GraphBlock.Graph.Calculator
import GraphBlock.Proofs.Text.Replace

namespace GraphBlock.Calculator

open Text

/-! The commands, behind the backslash that begins them. -/

def lessCommand : Text := ['l', 'e', ' ']
def greaterCommand : Text := ['g', 'e', ' ']

variable {r : Text}

theorem clauseBody_eq (r : Text) : clauseBody r =
    replacePair '>' '=' ('\\' :: greaterCommand) (replacePair '<' '=' ('\\' :: lessCommand) r) :=
  rfl

theorem clauseBody_eq_swapped (r : Text) : clauseBody r =
    replacePair '<' '=' ('\\' :: lessCommand) (replacePair '>' '=' ('\\' :: greaterCommand) r) := by
  rw [clauseBody_eq]
  apply replacePair_comm
  · decide
  · decide
  · decide
  · decide
  · decide
  · decide
  · decide

theorem clauseBody_without_less (r : Text) : ¬ ['<', '='] <:+: clauseBody r := by
  intro h
  rw [clauseBody_eq_swapped] at h
  exact (pair_infix_of_replacePair (by decide) (by decide) h).2 ⟨rfl, rfl⟩

theorem clauseBody_without_greater (r : Text) : ¬ ['>', '='] <:+: clauseBody r := by
  intro h
  rw [clauseBody_eq] at h
  exact (pair_infix_of_replacePair (by decide) (by decide) h).2 ⟨rfl, rfl⟩

/-- Undoing one replacement leaves the other, as no command of one kind comes from the other. -/
theorem replace_less (h : ¬ '\\' :: lessCommand <:+: r) :
    replace ('\\' :: lessCommand) ['<', '='] (clauseBody r) =
      replacePair '>' '=' ('\\' :: greaterCommand) r := by
  rw [clauseBody_eq_swapped]
  apply replace_replacePair (by decide)
  intro hin
  apply h
  apply infix_of_infix_replacePair (by decide) (by decide) _ hin
  intro w hw
  exact absurd (List.cons_prefix_cons.mp hw).1 (by decide)

theorem replace_greater (h : ¬ '\\' :: greaterCommand <:+: r) :
    replace ('\\' :: greaterCommand) ['>', '='] (clauseBody r) =
      replacePair '<' '=' ('\\' :: lessCommand) r := by
  rw [clauseBody_eq]
  apply replace_replacePair (by decide)
  intro hin
  apply h
  apply infix_of_infix_replacePair (by decide) (by decide) _ hin
  intro w hw
  exact absurd (List.cons_prefix_cons.mp hw).1 (by decide)

/-- The body of a clause holds no comparison that is not strict, it is the restriction with both
replaced in either order, and where the restriction holds none of the commands, replacing these by
the comparisons gives the restriction back. -/
theorem clauseBody_comparisons (r : Text) :
    clause r = '\\' :: '{' :: clauseBody r ++ ['\\', '}'] ∧
    (¬ "<=".toList <:+: clauseBody r ∧ ¬ ">=".toList <:+: clauseBody r) ∧
    clauseBody r = replace ">=" "\\ge " (replace "<=" "\\le " r) ∧
    clauseBody r = replace "<=" "\\le " (replace ">=" "\\ge " r) ∧
    (¬ "\\le ".toList <:+: r → ¬ "\\ge ".toList <:+: r →
      replace "\\ge " ">=" (replace "\\le " "<=" (clauseBody r)) = r ∧
      replace "\\le " "<=" (replace "\\ge " ">=" (clauseBody r)) = r) := by
  refine ⟨rfl, ⟨clauseBody_without_less r, clauseBody_without_greater r⟩, ?_, ?_,
    fun hless hgreater => ⟨?_, ?_⟩⟩
  · rw [clauseBody_eq, replacePair_eq_replace, replacePair_eq_replace]
    rfl
  · rw [clauseBody_eq_swapped, replacePair_eq_replace, replacePair_eq_replace]
    rfl
  · calc replace "\\ge " ">=" (replace "\\le " "<=" (clauseBody r))
        = replace ('\\' :: greaterCommand) ['>', '=']
            (replacePair '>' '=' ('\\' :: greaterCommand) r) :=
          congrArg (replace _ _) (replace_less hless)
      _ = r := replace_replacePair (by decide) hgreater
  · calc replace "\\le " "<=" (replace "\\ge " ">=" (clauseBody r))
        = replace ('\\' :: lessCommand) ['<', '=']
            (replacePair '<' '=' ('\\' :: lessCommand) r) :=
          congrArg (replace _ _) (replace_greater hgreater)
      _ = r := replace_replacePair (by decide) hless

theorem clauseBody_comparisons_side_by_side :
    clauseBody "<<==>=\\le<=x" = "<\\le =\\ge \\le\\le x".toList ∧
    replace "\\ge " ">=" (replace "\\le " "<=" (clauseBody "<<==>=\\le<=x")) =
      "<<==>=\\le<=x".toList := by
  have hback := (clauseBody_comparisons "<<==>=\\le<=x").2.2.2.2 (by decide) (by decide)
  exact ⟨by decide, hback.1⟩

end GraphBlock.Calculator
