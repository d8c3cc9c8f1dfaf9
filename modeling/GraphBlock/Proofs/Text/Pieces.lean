import GraphBlock.Text.Pieces

namespace GraphBlock.Pieces

variable {isDelimiter : Char → Bool} {f g h : Text → Option Text}

/-- Pieces as cutting yields them: all delimiters, and only they, stand between pieces. -/
def Proper (isDelimiter : Char → Bool) : Pieces → Prop
  | last p => ∀ c ∈ p, isDelimiter c = false
  | closed p d rest =>
    (∀ c ∈ p, isDelimiter c = false) ∧ isDelimiter d = true ∧ rest.Proper isDelimiter

theorem proper_push {c : Char} {ps : Pieces} (hc : isDelimiter c = false)
    (hps : ps.Proper isDelimiter) : (ps.push c).Proper isDelimiter := by
  cases ps with
  | last p => simpa [push, Proper, hc] using hps
  | closed p d rest =>
    obtain ⟨hp, hd, hrest⟩ := hps
    exact ⟨by simpa [hc] using hp, hd, hrest⟩

theorem proper_cut (isDelimiter : Char → Bool) (t : Text) :
    (cut isDelimiter t).Proper isDelimiter := by
  induction t with
  | nil => simp [cut, Proper]
  | cons c t ih =>
    by_cases hc : isDelimiter c
    · simpa [cut, hc, Proper] using ih
    · simpa [cut, hc] using proper_push (by simpa using hc) ih

theorem cut_text {ps : Pieces} (hps : ps.Proper isDelimiter) : cut isDelimiter ps.text = ps := by
  induction ps with
  | last p => exact cut_eq_last hps
  | closed p d rest ih =>
    obtain ⟨hp, hd, hrest⟩ := hps
    rw [text, cut_append_cons _ hp hd, ih hrest]

theorem infix_text {ps : Pieces} {p : Text} (hp : p ∈ ps.toList) : p <:+: ps.text := by
  induction ps with
  | last q =>
    rw [List.mem_singleton.mp hp]
    exact List.infix_refl q
  | closed q d rest ih =>
    rw [text, List.append_cons]
    rcases List.mem_cons.mp hp with hp | hp
    · rw [hp]
      exact List.infix_append_of_infix_left (List.infix_append_of_infix_left (List.infix_refl q))
    · exact List.infix_append_of_infix_right (ih hp)

theorem Proper.mem_text {ps : Pieces} (hps : ps.Proper isDelimiter) {c : Char} (hc : c ∈ ps.text) :
    isDelimiter c = true ∨ ∃ p ∈ ps.toList, c ∈ p := by
  induction ps with
  | last p => exact .inr ⟨p, List.mem_cons_self, hc⟩
  | closed p d rest ih =>
    obtain ⟨-, hd, hrest⟩ := hps
    rw [text, List.mem_append, List.mem_cons] at hc
    rcases hc with hc | rfl | hc
    · exact .inr ⟨p, List.mem_cons_self, hc⟩
    · exact .inl hd
    · rcases ih hrest hc with hdelimiter | hin
      · exact .inl hdelimiter
      · obtain ⟨q, hq, hcq⟩ := hin
        exact .inr ⟨q, List.mem_cons_of_mem _ hq, hcq⟩

theorem Proper.not_delimiter {ps : Pieces} (hps : ps.Proper isDelimiter) {p : Text}
    (hp : p ∈ ps.toList) : ∀ c ∈ p, isDelimiter c = false := by
  induction ps with
  | last q =>
    obtain rfl := List.mem_singleton.mp hp
    exact hps
  | closed q d rest ih =>
    rcases List.mem_cons.mp hp with rfl | hp
    · exact hps.1
    · exact ih hps.2.2 hp

def map (f : Text → Text) : Pieces → Pieces
  | last p => last (f p)
  | closed p d rest => closed (f p) d (rest.map f)

theorem toList_map (f : Text → Text) (ps : Pieces) : (ps.map f).toList = ps.toList.map f := by
  induction ps with
  | last p => rfl
  | closed p d rest ih => rw [map, toList, ih, toList, List.map_cons]

theorem Proper.map {f : Text → Text} {ps : Pieces} (hps : ps.Proper isDelimiter)
    (hf : ∀ p, (∀ c ∈ p, isDelimiter c = false) → ∀ c ∈ f p, isDelimiter c = false) :
    (ps.map f).Proper isDelimiter := by
  induction ps with
  | last p => exact hf p hps
  | closed p d rest ih =>
    obtain ⟨hp, hd, hrest⟩ := hps
    exact ⟨hf p hp, hd, ih hrest⟩

theorem Proper.updateFirst? {ps qs : Pieces} (hps : ps.Proper isDelimiter)
    (hf : ∀ p q, f p = some q → (∀ c ∈ p, isDelimiter c = false) → ∀ c ∈ q, isDelimiter c = false)
    (hqs : ps.updateFirst? f = some qs) : qs.Proper isDelimiter := by
  induction ps generalizing qs with
  | last p =>
    obtain ⟨q, hq, rfl⟩ := Option.map_eq_some_iff.mp hqs
    exact hf p q hq hps
  | closed p d rest ih =>
    obtain ⟨hp, hd, hrest⟩ := hps
    rw [Pieces.updateFirst?] at hqs
    split at hqs
    · next q hq =>
      cases hqs
      exact ⟨hf p q hq hp, hd, hrest⟩
    · obtain ⟨rs, hrs, rfl⟩ := Option.map_eq_some_iff.mp hqs
      exact ⟨hp, hd, ih hrest hrs⟩

theorem exists_around {ps qs : Pieces} (hps : ps.Proper isDelimiter)
    (hqs : ps.updateFirst? f = some qs) :
    ∃ a p b q, f p = some q ∧ p ∈ ps.toList ∧ ps.text = a ++ p ++ b ∧ qs.text = a ++ q ++ b ∧
      (∀ d ∈ a.getLast?, isDelimiter d = true) ∧ ∀ d ∈ b.head?, isDelimiter d = true := by
  induction ps generalizing qs with
  | last p =>
    obtain ⟨q, hq, rfl⟩ := Option.map_eq_some_iff.mp hqs
    exact ⟨[], p, [], q, hq, List.mem_cons_self, by simp [text], by simp [text], by simp, by simp⟩
  | closed p d rest ih =>
    obtain ⟨-, hd, hrest⟩ := hps
    rw [Pieces.updateFirst?] at hqs
    split at hqs
    · next q hq =>
      cases hqs
      exact ⟨[], p, d :: rest.text, q, hq, List.mem_cons_self, rfl, rfl, by simp, by simpa using hd⟩
    · obtain ⟨rs, hrs, rfl⟩ := Option.map_eq_some_iff.mp hqs
      obtain ⟨a, p', b, q, hq, hp, htext, hnew, ha, hb⟩ := ih hrest hrs
      refine ⟨p ++ d :: a, p', b, q, hq, List.mem_cons_of_mem _ hp, by simp [text, htext],
        by simp [text, hnew], ?_, hb⟩
      intro c hc
      rw [List.getLast?_append, List.getLast?_cons] at hc
      cases hlast : a.getLast? with
      | none =>
        rw [hlast] at hc
        cases hc
        exact hd
      | some e =>
        rw [hlast] at hc
        cases hc
        exact ha _ hlast

@[simp] theorem updateFirst?_eq_none_iff {ps : Pieces} :
    ps.updateFirst? f = none ↔ ∀ p ∈ ps.toList, f p = none := by
  induction ps with
  | last p => simp [updateFirst?, toList]
  | closed p d rest ih =>
    cases hp : f p with
    | none => simp [updateFirst?, toList, hp, ih]
    | some q => simp [updateFirst?, toList, hp]

/-- If `g` takes what `f` leaves to what `h` would have made of it, then `g` after `f` is `h`. -/
theorem updateFirst?_updateFirst? {ps qs : Pieces} (hqs : ps.updateFirst? f = some qs)
    (hnone : ∀ p ∈ ps.toList, f p = none → g p = none ∧ h p = none)
    (hsome : ∀ p q, f p = some q → g q = h p ∧ (h p).isSome) :
    ∃ rs, ps.updateFirst? h = some rs ∧ qs.updateFirst? g = some rs := by
  induction ps generalizing qs with
  | last p =>
    obtain ⟨q, hq, rfl⟩ := Option.map_eq_some_iff.mp hqs
    obtain ⟨hgh, hs⟩ := hsome p q hq
    obtain ⟨r, hr⟩ := Option.isSome_iff_exists.mp hs
    exact ⟨last r, by simp [updateFirst?, hr], by simp [updateFirst?, hgh, hr]⟩
  | closed p d rest ih =>
    rw [updateFirst?] at hqs
    split at hqs
    · next q hq =>
      cases hqs
      obtain ⟨hgh, hs⟩ := hsome p q hq
      obtain ⟨r, hr⟩ := Option.isSome_iff_exists.mp hs
      exact ⟨closed r d rest, by simp [updateFirst?, hr], by simp [updateFirst?, hgh, hr]⟩
    · next hp =>
      obtain ⟨ts, hts, rfl⟩ := Option.map_eq_some_iff.mp hqs
      obtain ⟨hg, hh⟩ := hnone p (by simp [toList]) hp
      obtain ⟨rs, hrs, hts'⟩ := ih hts fun q hq => hnone q (by simp [toList, hq])
      exact ⟨closed p d rs, by simp [updateFirst?, hh, hrs], by simp [updateFirst?, hg, hts']⟩

/-- Where `f` is defined, `g` is not, neither before nor after the change. -/
def Apart (f g : Text → Option Text) : Prop :=
  ∀ p q, f p = some q → g p = none ∧ g q = none

theorem Apart.updateFirst?_eq_none_iff {ps qs : Pieces} (hfg : Apart f g)
    (hqs : ps.updateFirst? f = some qs) :
    qs.updateFirst? g = none ↔ ps.updateFirst? g = none := by
  induction ps generalizing qs with
  | last p =>
    obtain ⟨q, hq, rfl⟩ := Option.map_eq_some_iff.mp hqs
    obtain ⟨hp, hq⟩ := hfg p q hq
    simp [Pieces.updateFirst?, hp, hq]
  | closed p d rest ih =>
    rw [Pieces.updateFirst?] at hqs
    split at hqs
    · next q hq =>
      cases hqs
      obtain ⟨hp, hq⟩ := hfg p q hq
      simp [Pieces.updateFirst?, hp, hq]
    · obtain ⟨rs, hrs, rfl⟩ := Option.map_eq_some_iff.mp hqs
      cases hp : g p with
      | none => simpa [Pieces.updateFirst?, hp] using ih hrs
      | some q => simp [Pieces.updateFirst?, hp]

theorem Apart.updateFirst?_comm {ps qs rs : Pieces} (hfg : Apart f g) (hgf : Apart g f)
    (hqs : ps.updateFirst? f = some qs) (hrs : ps.updateFirst? g = some rs) :
    qs.updateFirst? g = rs.updateFirst? f := by
  -- there are two pieces to change: a single one cannot be changed by both
  induction ps generalizing qs rs with
  | last p =>
    obtain ⟨q, hq, rfl⟩ := Option.map_eq_some_iff.mp hqs
    simp [Pieces.updateFirst?, (hfg p q hq).1] at hrs
  | closed p d rest ih =>
    rw [Pieces.updateFirst?] at hqs hrs
    cases hp : f p with
    | some q =>
      obtain ⟨hgp, hgq⟩ := hfg p q hp
      simp only [hp, hgp, Option.some.injEq] at hqs hrs
      subst hqs
      obtain ⟨ts, hts, rfl⟩ := Option.map_eq_some_iff.mp hrs
      simp [Pieces.updateFirst?, hgq, hp, hts]
    | none =>
      simp only [hp] at hqs
      obtain ⟨ts, hts, rfl⟩ := Option.map_eq_some_iff.mp hqs
      cases hgp : g p with
      | some q =>
        simp only [hgp, Option.some.injEq] at hrs
        subst hrs
        simp [Pieces.updateFirst?, hgp, (hgf p q hgp).2, hts]
      | none =>
        simp only [hgp] at hrs
        obtain ⟨us, hus, rfl⟩ := Option.map_eq_some_iff.mp hrs
        simp [Pieces.updateFirst?, hp, hgp, ih hts hus]

end GraphBlock.Pieces
