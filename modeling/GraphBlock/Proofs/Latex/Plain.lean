import GraphBlock.Algebra.System
import GraphBlock.Hint
import GraphBlock.Proofs.Algebra.Printer

namespace GraphBlock.Latex

variable {S : Signature}

theorem plain_eq (s : System S) {tex : Text} {e : Expr S} (h : s.parse tex = .ok e) :
    s.plain tex = .ok (s.printer.withCarets.text e) := by
  rw [System.plain, h]
  rfl

/-- No expression, however deep, is written with two asterisks side by side. So none stand in the
plain spelling of a formula that is read as one, nor in the suggestion for such a restriction. -/
theorem plain_without_double_star (s : System S) (hs : s.printer.OnlyJoins) :
    (∀ e : Expr S, e.Named → ¬ ("**" : Text) <:+: s.printer.withCarets.text e) ∧
    (∀ (tex : Text) (e : Expr S), s.parse tex = .ok e → e.Named →
      ∃ plain, s.plain tex = .ok plain ∧ ¬ ("**" : Text) <:+: plain) ∧
    ∀ (segment : Text) (e : Expr S) (hint : Hint), s.parse segment = .ok e → e.Named →
      Hint.ofRestriction? s.plain segment = some hint →
      ∃ plain, hint.suggestion = some plain ∧ ¬ ("**" : Text) <:+: plain := by
  have hsingle : ∀ e : Expr S, e.Named → ¬ ("**" : Text) <:+: s.printer.withCarets.text e :=
    fun e he => (Printer.joins_print_withCarets hs 1 e he).single
  refine ⟨hsingle, ?_, ?_⟩
  · intro tex e he hnamed
    exact ⟨_, plain_eq s he, hsingle e hnamed⟩
  · intro segment e hint he hnamed hhint
    obtain ⟨-, hhint⟩ := Option.ite_none_right_eq_some.mp hhint
    rw [← Option.some.inj hhint, plain_eq s he]
    exact ⟨_, rfl, hsingle e hnamed⟩

/-- A power below a fraction bar, a power of a power, and a restriction with one in an exponent. -/
theorem plain_without_double_star_nested :
    (Algebra.printer.withCarets.text
        (.product [.symbol "x", .power (.symbol "y") (Algebra.Tree.int (-2))]) = "x/y^2".toList ∧
      ¬ ("**" : Text) <:+: "x/y^2") ∧
    (Algebra.printer.text (.power (.power (.symbol "x") (.symbol "y")) (.symbol "z")) =
        "(x**y)**z".toList ∧
      ¬ ("**" : Text) <:+: Algebra.printer.withCarets.text
        (.power (.power (.symbol "x") (.symbol "y")) (.symbol "z"))) ∧
    (Hint.ofRestriction? Algebra.system.plain "x<\\alpha^{y^{2}}" =
        some ⟨"x<\\alpha^{y^{2}}", some "x < alpha^(y^2)"⟩ ∧
      ¬ ("**" : Text) <:+: "x < alpha^(y^2)") := by
  obtain ⟨hexpr, -, hhint⟩ := plain_without_double_star Algebra.system Algebra.onlyJoins_printer
  have hquotient : Algebra.printer.withCarets.text
      (.product [.symbol "x", .power (.symbol "y") (Algebra.Tree.int (-2))]) = "x/y^2".toList := by
    decide +kernel
  have hparse : Algebra.system.parse "x<\\alpha^{y^{2}}" = .ok (.relation .less (.symbol "x")
      (.power (.symbol "alpha") (.power (.symbol "y") (Algebra.Tree.int 2)))) := rfl
  have hrestriction : Hint.ofRestriction? Algebra.system.plain "x<\\alpha^{y^{2}}" =
      some ⟨"x<\\alpha^{y^{2}}", some "x < alpha^(y^2)"⟩ := by
    decide +kernel
  obtain ⟨plain, hplain, hsingle⟩ := hhint _ _ _ hparse (by decide) hrestriction
  cases hplain
  exact ⟨⟨hquotient, hquotient ▸ hexpr _ (by decide)⟩,
    ⟨by decide +kernel, hexpr _ (by decide)⟩, hrestriction, hsingle⟩

end GraphBlock.Latex
