/-!
Text is a list of characters, so that every reader and writer is a recursion on it. Here are the
blanks, trimming, and the first occurrence of a mark.
-/

namespace GraphBlock

abbrev Text := List Char

instance : Coe String Text := ⟨String.toList⟩

namespace Text

def isBlank (c : Char) : Bool :=
  let n := c.toNat
  (0x09 ≤ n && n ≤ 0x0D) || (0x1C ≤ n && n ≤ 0x20) || n == 0x85 || n == 0xA0 || n == 0x1680 ||
    (0x2000 ≤ n && n ≤ 0x200A) || n == 0x2028 || n == 0x2029 || n == 0x202F || n == 0x205F ||
    n == 0x3000

def trimBy (p : Char → Bool) (t : Text) : Text :=
  ((t.dropWhile p).reverse.dropWhile p).reverse

def trim (t : Text) : Text := trimBy isBlank t

def breakAt? (c : Char) : Text → Option (Text × Text)
  | [] => none
  | d :: t => if d = c then some ([], t) else (breakAt? c t).map fun (a, b) => (d :: a, b)

def replacePair (a b : Char) (new : Text) : Text → Text
  | c :: d :: t =>
    if c = a ∧ d = b then new ++ replacePair a b new t else c :: replacePair a b new (d :: t)
  | t => t

/-- What holds of the characters of a text is decided by going through the text, not through all
characters. -/
instance decidableForallMem {P : Char → Prop} [DecidablePred P] (t : Text) :
    Decidable (∀ c ∈ t, P c) := List.decidableBAll P t

instance decidableForallOption {P : Char → Prop} [DecidablePred P] (o : Option Char) :
    Decidable (∀ c ∈ o, P c) := Option.decidableForallMem o

theorem breakAt?_eq_some {c : Char} {t a b : Text} (h : breakAt? c t = some (a, b)) :
    t = a ++ c :: b ∧ c ∉ a := by
  induction t generalizing a b with
  | nil => simp [breakAt?] at h
  | cons d t ih =>
    by_cases hd : d = c
    · simp only [breakAt?, if_pos hd, Option.some.injEq, Prod.mk.injEq] at h
      obtain ⟨rfl, rfl⟩ := h
      simp [hd]
    · simp only [breakAt?, if_neg hd, Option.map_eq_some_iff, Prod.mk.injEq] at h
      obtain ⟨⟨x, y⟩, hx, rfl, rfl⟩ := h
      obtain ⟨rfl, hn⟩ := ih hx
      simp [hn, Ne.symm hd]

theorem breakAt?_append {c : Char} {a : Text} (b : Text) (ha : c ∉ a) :
    breakAt? c (a ++ c :: b) = some (a, b) := by
  induction a with
  | nil => simp [breakAt?]
  | cons d a ih =>
    rw [List.mem_cons, not_or] at ha
    rw [List.cons_append, breakAt?, if_neg (Ne.symm ha.1), ih ha.2]
    rfl

theorem breakAt?_eq_none_iff {c : Char} {t : Text} : breakAt? c t = none ↔ c ∉ t := by
  induction t with
  | nil => simp [breakAt?]
  | cons d t ih =>
    by_cases hd : d = c
    · simp [breakAt?, hd]
    · simp [breakAt?, hd, ih, Ne.symm hd]

end Text

end GraphBlock
