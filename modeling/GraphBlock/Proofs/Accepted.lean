import Mathlib.Data.List.Forall2

namespace GraphBlock

variable {ε ε' α β : Type}

theorem map_eq_ok_iff {x : Except ε α} {f : α → β} {b : β} :
    x.map f = .ok b ↔ ∃ a, x = .ok a ∧ f a = b := by
  cases x <;> simp [Except.map]

theorem map_eq_error_iff {x : Except ε α} {f : α → β} {e : ε} :
    x.map f = .error e ↔ x = .error e := by
  cases x <;> simp [Except.map]

theorem bind_eq_ok_iff {x : Except ε α} {f : α → Except ε β} {b : β} :
    x >>= f = .ok b ↔ ∃ a, x = .ok a ∧ f a = .ok b := by
  cases x <;> simp [bind, Except.bind]

theorem bind_eq_error_iff {x : Except ε α} {f : α → Except ε β} {e : ε} :
    x >>= f = .error e ↔ x = .error e ∨ ∃ a, x = .ok a ∧ f a = .error e := by
  cases x <;> simp [bind, Except.bind]

theorem foldlM_induction {P : β → Prop} {f : β → α → Except ε β} {l : List α} {b c : β}
    (hstep : ∀ a ∈ l, ∀ b c, P b → f b a = .ok c → P c) (hb : P b)
    (h : l.foldlM f b = .ok c) : P c := by
  induction l generalizing b with
  | nil =>
    cases h
    exact hb
  | cons a l ih =>
    rw [List.foldlM_cons] at h
    obtain ⟨d, hd, h⟩ := bind_eq_ok_iff.mp h
    exact ih (fun x hx => hstep x (List.mem_cons_of_mem _ hx))
      (hstep a List.mem_cons_self b d hb hd) h

theorem foldlM_eq_error_iff {f : β → α → Except ε β} {l : List α} {b : β} {e : ε} :
    l.foldlM f b = .error e ↔
      ∃ front a rest c, l = front ++ a :: rest ∧ front.foldlM f b = .ok c ∧ f c a = .error e := by
  induction l generalizing b with
  | nil => simp [pure, Except.pure]
  | cons a l ih =>
    rw [List.foldlM_cons, bind_eq_error_iff]
    constructor
    · intro h
      rcases h with h | ⟨c, hc, h⟩
      · exact ⟨[], a, l, b, rfl, rfl, h⟩
      · obtain ⟨front, x, rest, d, hl, hfront, hx⟩ := ih.mp h
        refine ⟨a :: front, x, rest, d, by rw [hl, List.cons_append], ?_, hx⟩
        rw [List.foldlM_cons, hc]
        exact hfront
    · rintro ⟨front, x, rest, d, hl, hfront, hx⟩
      cases front with
      | nil =>
        cases hl
        cases hfront
        exact .inl hx
      | cons y front =>
        cases hl
        rw [List.foldlM_cons] at hfront
        obtain ⟨c, hc, hfront⟩ := bind_eq_ok_iff.mp hfront
        exact .inr ⟨c, hc, ih.mpr ⟨front, x, rest, d, rfl, hfront, hx⟩⟩

/-- A run fails at the first step that is refused, as far as the steps before it tell. -/
theorem foldlM_eq_error_iff_first {f : β → α → Except ε β} {b : β} {Refused : List α → α → ε → Prop}
    (hstep : ∀ front c a e, front.foldlM f b = .ok c → (f c a = .error e ↔ Refused front a e))
    {l : List α} {e : ε} :
    l.foldlM f b = .error e ↔ ∃ front a rest, l = front ++ a :: rest ∧ Refused front a e ∧
      ∀ start x more, front = start ++ x :: more → ∀ e', ¬ Refused start x e' := by
  rw [foldlM_eq_error_iff]
  constructor
  · rintro ⟨front, a, rest, c, hl, hfront, ha⟩
    refine ⟨front, a, rest, hl, (hstep front c a e hfront).mp ha, ?_⟩
    rintro start x more rfl e' hx
    rw [List.foldlM_append, bind_eq_ok_iff] at hfront
    obtain ⟨d, hd, hfront⟩ := hfront
    rw [List.foldlM_cons, (hstep start d x e' hd).mpr hx] at hfront
    cases hfront
  · rintro ⟨front, a, rest, hl, ha, hfirst⟩
    cases hfront : front.foldlM f b with
    | ok c => exact ⟨front, a, rest, c, hl, hfront, (hstep front c a e hfront).mpr ha⟩
    | error e' =>
      obtain ⟨start, x, more, d, hsplit, hstart, hx⟩ := foldlM_eq_error_iff.mp hfront
      exact absurd ((hstep start d x e' hstart).mp hx) (hfirst start x more hsplit e')

theorem mapM_eq_error_iff {f : α → Except ε β} {l : List α} {e : ε} :
    l.mapM f = .error e ↔
      ∃ front a rest, l = front ++ a :: rest ∧ (∀ x ∈ front, ∃ b, f x = .ok b) ∧
        f a = .error e := by
  induction l with
  | nil => simp [pure, Except.pure]
  | cons a l ih =>
    rw [List.mapM_cons, bind_eq_error_iff]
    constructor
    · rintro (h | ⟨b, hb, h⟩)
      · exact ⟨[], a, l, rfl, by simp, h⟩
      · have hrest : l.mapM f = .error e := by
          rcases bind_eq_error_iff.mp h with h | ⟨bs, -, h⟩
          · exact h
          · cases h
        obtain ⟨front, x, rest, hl, hfront, hx⟩ := ih.mp hrest
        refine ⟨a :: front, x, rest, by rw [hl, List.cons_append], ?_, hx⟩
        exact List.forall_mem_cons.mpr ⟨⟨b, hb⟩, hfront⟩
    · rintro ⟨front, x, rest, hl, hfront, hx⟩
      cases front with
      | nil =>
        cases hl
        exact .inl hx
      | cons y front =>
        cases hl
        obtain ⟨⟨b, hb⟩, hfront⟩ := List.forall_mem_cons.mp hfront
        refine .inr ⟨b, hb, ?_⟩
        rw [ih.mpr ⟨front, x, rest, rfl, hfront, hx⟩]
        rfl

theorem mapM_append_eq_ok_iff {f : α → Except ε β} {l m : List α} {bs : List β} :
    (l ++ m).mapM f = .ok bs ↔
      ∃ as cs, l.mapM f = .ok as ∧ m.mapM f = .ok cs ∧ bs = as ++ cs := by
  rw [List.mapM_append, bind_eq_ok_iff]
  constructor
  · rintro ⟨as, has, h⟩
    obtain ⟨cs, hcs, h⟩ := bind_eq_ok_iff.mp h
    cases h
    exact ⟨as, cs, has, hcs, rfl⟩
  · rintro ⟨as, cs, has, hcs, rfl⟩
    exact ⟨as, has, bind_eq_ok_iff.mpr ⟨cs, hcs, rfl⟩⟩

theorem mapError_bind {x : Except ε α} {f : α → Except ε β} {g : ε → ε'} :
    (x >>= f).mapError g = x.mapError g >>= fun a => (f a).mapError g := by
  cases x <;> rfl

theorem foldlM_mapError {f : β → α → Except ε β} {g : ε → ε'} (l : List α) (b : β) :
    l.foldlM (fun c a => (f c a).mapError g) b = (l.foldlM f b).mapError g := by
  induction l generalizing b with
  | nil => rfl
  | cons a l ih => simp only [List.foldlM_cons, mapError_bind, ih]

theorem mapM_mapError {f : α → Except ε β} {g : ε → ε'} (l : List α) :
    l.mapM (fun a => (f a).mapError g) = (l.mapM f).mapError g := by
  induction l with
  | nil => rfl
  | cons a l ih =>
    simp only [List.mapM_cons, mapError_bind, ih]
    rfl

/-- Computations that show the same, continued in ways that show the same. -/
theorem bind_map_congr {α' β' γ δ : Type} {x : Except ε α} {y : Except ε α'}
    {f : α → Except ε β} {g : α' → Except ε β'} {p : α → γ} {q : α' → γ} {r : β → δ} {s : β' → δ}
    (hxy : x.map p = y.map q) (hfg : ∀ a b, p a = q b → (f a).map r = (g b).map s) :
    (x >>= f).map r = (y >>= g).map s := by
  cases x with
  | error e =>
    cases y with
    | error e' =>
      cases hxy
      rfl
    | ok b => cases hxy
  | ok a =>
    cases y with
    | error e => cases hxy
    | ok b => exact hfg a b (Except.ok.inj hxy)

theorem foldlM_map_congr {β' γ : Type} {f : β → α → Except ε β} {g : β' → α → Except ε β'}
    {p : β → γ} {q : β' → γ} (hstep : ∀ a b c, p b = q c → (f b a).map p = (g c a).map q)
    (l : List α) {b : β} {c : β'} (hbc : p b = q c) :
    (l.foldlM f b).map p = (l.foldlM g c).map q := by
  induction l generalizing b c with
  | nil => exact congrArg Except.ok hbc
  | cons a l ih =>
    rw [List.foldlM_cons, List.foldlM_cons]
    exact bind_map_congr (hstep a b c hbc) fun _ _ h => ih h

theorem mapM_map_congr {β' γ : Type} {f : α → Except ε β} {g : α → Except ε β'} {p : β → γ}
    {q : β' → γ} (h : ∀ a, (f a).map p = (g a).map q) (l : List α) :
    (l.mapM f).map (List.map p) = (l.mapM g).map (List.map q) := by
  induction l with
  | nil => rfl
  | cons a l ih =>
    rw [List.mapM_cons, List.mapM_cons]
    refine bind_map_congr (h a) fun b c hbc => bind_map_congr ih fun bs cs hbcs => ?_
    exact congrArg Except.ok (List.cons_eq_cons.mpr ⟨hbc, hbcs⟩)

theorem forall₂_of_mapM {f : α → Except ε β} {l : List α} {m : List β} (h : l.mapM f = .ok m) :
    List.Forall₂ (fun a b => f a = .ok b) l m := by
  induction l generalizing m with
  | nil =>
    cases h
    exact .nil
  | cons a l ih =>
    rw [List.mapM_cons] at h
    obtain ⟨b, hb, h⟩ := bind_eq_ok_iff.mp h
    obtain ⟨bs, hbs, h⟩ := bind_eq_ok_iff.mp h
    cases h
    exact .cons hb (ih hbs)

theorem exists_ok_iff {x : Except ε α} : (∃ a, x = .ok a) ↔ ∀ e, x ≠ .error e := by
  cases x <;> simp

theorem exists_ok {x : Except ε α} (h : x.isOk = true) : ∃ a, x = .ok a := by
  cases x with
  | ok a => exact ⟨a, rfl⟩
  | error e => cases h

end GraphBlock
