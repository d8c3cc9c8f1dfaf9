import GraphBlock.Proofs.Source.Directive

namespace GraphBlock

namespace Pieces

/-- Adds a line at the end; `fresh` tells that the text before stands at the start of a line. -/
def addLine (line : Text) : (fresh : Bool) → Pieces → Pieces
  | fresh, last p =>
    if fresh ∧ p = [] then closed line '\n' (last [])
    else closed p '\n' (closed line '\n' (last []))
  | _, closed p d rest => closed p d (rest.addLine line (d == '\n'))

def assignKey? (key value : Text) (ps : Pieces) : Option Pieces :=
  (ps.updateFirst? (Source.assign? key value)).or (ps.updateFirst? (Source.assignBare? key value))

def assignKey (key value : Text) (ps : Pieces) : Pieces :=
  (ps.assignKey? key value).getD (ps.addLine (key ++ '=' :: value) true)

variable {f : Text → Option Text} {line : Text}

def endsLine (fresh : Bool) (t : Text) : Bool := (t.getLast?.map (· == '\n')).getD fresh

theorem text_addLine {ps : Pieces} (fresh : Bool) (hps : ps.Proper Overrides.isDelimiter) :
    (ps.addLine line fresh).text =
      ps.text ++ (if endsLine fresh ps.text then [] else ['\n']) ++ line ++ ['\n'] := by
  induction ps generalizing fresh with
  | last p =>
    by_cases hp : p = []
    · cases fresh <;> simp [addLine, text, endsLine, hp]
    · have hlast : p.getLast hp ≠ '\n' := by
        intro heq
        have := hps _ (List.getLast_mem hp)
        rw [heq] at this
        cases this
      simp [addLine, text, endsLine, hp, List.getLast?_eq_getLast_of_ne_nil hp, hlast]
  | closed p d rest ih =>
    have hends : endsLine fresh (p ++ d :: rest.text) = endsLine (d == '\n') rest.text := by
      cases hr : rest.text.getLast? <;> simp [endsLine, List.getLast?_cons, hr]
    simp [addLine, text, ih (d == '\n') hps.2.2, hends]

theorem proper_addLine {ps : Pieces} (fresh : Bool) (hps : ps.Proper Overrides.isDelimiter)
    (hline : ∀ c ∈ line, Overrides.isDelimiter c = false) :
    (ps.addLine line fresh).Proper Overrides.isDelimiter := by
  have hbreak : Overrides.isDelimiter '\n' = true := rfl
  induction ps generalizing fresh with
  | last p =>
    by_cases hp : fresh ∧ p = []
    · simpa [addLine, hp, Proper, hbreak] using hline
    · simpa [addLine, hp, Proper, hbreak] using ⟨hps, hline⟩
  | closed p d rest ih => exact ⟨hps.1, hps.2.1, ih _ hps.2.2⟩

theorem updateFirst?_addLine {ps qs : Pieces} (fresh : Bool) (hqs : ps.updateFirst? f = some qs)
    (hf : ∀ p q, f p = some q → p ≠ [] ∧ q ≠ []) :
    (ps.addLine line fresh).updateFirst? f = some (qs.addLine line fresh) := by
  induction ps generalizing qs fresh with
  | last p =>
    obtain ⟨q, hq, rfl⟩ := Option.map_eq_some_iff.mp hqs
    obtain ⟨hp, hq'⟩ := hf p q hq
    simp [addLine, updateFirst?, hp, hq, hq']
  | closed p d rest ih =>
    rw [updateFirst?] at hqs
    split at hqs
    · next q hq =>
      cases hqs
      simp [addLine, updateFirst?, hq]
    · next hp =>
      obtain ⟨rs, hrs, rfl⟩ := Option.map_eq_some_iff.mp hqs
      simp [addLine, updateFirst?, hp, ih _ hrs]

theorem updateFirst?_addLine_of_none {ps : Pieces} (fresh : Bool) (hps : ps.updateFirst? f = none)
    (hnil : f [] = none) :
    (ps.addLine line fresh).updateFirst? f = (f line).map (ps.addLine · fresh) := by
  induction ps generalizing fresh with
  | last p =>
    have hp : f p = none := by simpa [updateFirst?] using hps
    by_cases hfresh : fresh ∧ p = []
    · cases hl : f line <;> simp [addLine, updateFirst?, hfresh, hl, hnil]
    · cases hl : f line <;> simp [addLine, updateFirst?, hfresh, hp, hl, hnil]
  | closed p d rest ih =>
    rw [updateFirst?] at hps
    split at hps
    · cases hps
    · next hp =>
      have hrest : rest.updateFirst? f = none := by simpa using hps
      simp only [addLine, updateFirst?, hp, ih _ hrest, Option.map_map]
      rfl

end Pieces

namespace Source

open Pieces

variable {j k : Key} {v w x : Text} {ps qs rs : Pieces}

theorem setDirective_eq (settings : Text) :
    setDirective settings k.name v =
      ((cut Overrides.isDelimiter settings).assignKey k.name v).text := by
  have happend : appendDirective k.name v settings =
      ((cut Overrides.isDelimiter settings).addLine (k.name ++ '=' :: v) true).text := by
    rw [text_addLine true (proper_cut _ _), text_cut]
    cases hlast : settings.getLast? with
    | none =>
      obtain rfl := List.getLast?_eq_none_iff.mp hlast
      simp [appendDirective, endsLine]
    | some c =>
      have hne : settings ≠ [] := by
        rintro rfl
        cases hlast
      by_cases hc : c = '\n' <;> simp [appendDirective, endsLine, hlast, hne, hc]
  have hreplace : replaceDirective? k.name v settings =
      ((cut Overrides.isDelimiter settings).assignKey? k.name v).map Pieces.text := rfl
  rw [setDirective, hreplace, happend, assignKey]
  cases (cut Overrides.isDelimiter settings).assignKey? k.name v <;> rfl

theorem assignKey?_eq_some_iff :
    ps.assignKey? k.name v = some qs ↔ ps.updateFirst? (assign? k.name v) = some qs ∨
      ps.updateFirst? (assign? k.name v) = none ∧
        ps.updateFirst? (assignBare? k.name v) = some qs := by
  rw [assignKey?, Option.or_eq_some_iff]

theorem assignKey?_eq_none_iff :
    ps.assignKey? k.name v = none ↔ ps.updateFirst? (assign? k.name v) = none ∧
      ps.updateFirst? (assignBare? k.name v) = none := by
  rw [assignKey?, Option.or_eq_none_iff]

theorem assignKey_of_some (h : ps.assignKey? k.name v = some qs) : ps.assignKey k.name v = qs := by
  rw [assignKey, h]
  rfl

theorem assignKey_of_none (h : ps.assignKey? k.name v = none) :
    ps.assignKey k.name v = ps.addLine (k.name ++ '=' :: v) true := by
  rw [assignKey, h]
  rfl

theorem assignKey?_assignKey (hv : IsValue v) :
    (ps.assignKey k.name v).assignKey? k.name w = some (ps.assignKey k.name w) := by
  cases hassign : ps.updateFirst? (assign? k.name v) with
  | some qs =>
    obtain ⟨rs, hrs, hqs⟩ := updateFirst?_updateFirst? (g := assign? k.name w)
      (h := assign? k.name w) hassign
      (fun p _ hp => ⟨assign?_eq_none hp, assign?_eq_none hp⟩)
      (fun p q hpq => assign?_of_assign? hv hpq)
    rw [assignKey_of_some (assignKey?_eq_some_iff.mpr (.inl hassign)),
      assignKey_of_some (assignKey?_eq_some_iff.mpr (.inl hrs))]
    exact assignKey?_eq_some_iff.mpr (.inl hqs)
  | none =>
    have hnone : ∀ p ∈ ps.toList, assign? k.name w p = none := by
      intro p hp
      exact assign?_eq_none (updateFirst?_eq_none_iff.mp hassign p hp)
    have hw : ps.updateFirst? (assign? k.name w) = none := updateFirst?_eq_none_iff.mpr hnone
    cases hbare : ps.updateFirst? (assignBare? k.name v) with
    | some qs =>
      obtain ⟨rs, hrs, hqs⟩ := updateFirst?_updateFirst? (g := assign? k.name w)
        (h := assignBare? k.name w) hbare
        (fun p hp hpn => ⟨hnone p hp, assignBare?_eq_none hpn⟩)
        (fun p q hpq => assign?_of_assignBare? hv hpq)
      rw [assignKey_of_some (assignKey?_eq_some_iff.mpr (.inr ⟨hassign, hbare⟩)),
        assignKey_of_some (assignKey?_eq_some_iff.mpr (.inr ⟨hw, hrs⟩))]
      exact assignKey?_eq_some_iff.mpr (.inl hqs)
    | none =>
      have hbare' : ps.updateFirst? (assignBare? k.name w) = none :=
        updateFirst?_eq_none_iff.mpr fun p hp =>
          assignBare?_eq_none (updateFirst?_eq_none_iff.mp hbare p hp)
      rw [assignKey_of_none (assignKey?_eq_none_iff.mpr ⟨hassign, hbare⟩),
        assignKey_of_none (assignKey?_eq_none_iff.mpr ⟨hw, hbare'⟩)]
      refine assignKey?_eq_some_iff.mpr (.inl ?_)
      rw [updateFirst?_addLine_of_none true hw (IsAssignment.assign.eq_none (afterKey?_nil k)),
        assign?_line hv]
      rfl

/-- Assigning to one key leaves the assignments to another where they are. -/
theorem updateFirst?_of_assignKey? {f : Text → Option Text} (hjk : j ≠ k)
    (hf : IsAssignment j w f) (hqs : ps.assignKey? k.name v = some qs) :
    qs.updateFirst? f = none ↔ ps.updateFirst? f = none := by
  rcases assignKey?_eq_some_iff.mp hqs with h | ⟨-, h⟩
  · exact (IsAssignment.assign.apart hjk.symm hf).updateFirst?_eq_none_iff h
  · exact (IsAssignment.bare.apart hjk.symm hf).updateFirst?_eq_none_iff h

theorem assignKey?_of_updateFirst? {f : Text → Option Text} (hjk : j ≠ k)
    (hf : IsAssignment j w f) (hrs : ps.updateFirst? f = some rs)
    (hqs : ps.assignKey? k.name v = some qs) :
    ∃ ts, rs.assignKey? k.name v = some ts ∧ qs.updateFirst? f = some ts := by
  have hsome : qs.updateFirst? f ≠ none := by
    rw [Ne, updateFirst?_of_assignKey? hjk hf hqs, hrs]
    simp
  obtain ⟨ts, hts⟩ := Option.ne_none_iff_exists'.mp hsome
  refine ⟨ts, assignKey?_eq_some_iff.mpr ?_, hts⟩
  have hassign := hf.apart hjk (.assign : IsAssignment k v _)
  rcases assignKey?_eq_some_iff.mp hqs with h | ⟨hnone, h⟩
  · left
    rw [hassign.updateFirst?_comm (IsAssignment.assign.apart hjk.symm hf) hrs h, hts]
  · refine .inr ⟨(hassign.updateFirst?_eq_none_iff hrs).mpr hnone, ?_⟩
    rw [(hf.apart hjk IsAssignment.bare).updateFirst?_comm (IsAssignment.bare.apart hjk.symm hf)
      hrs h, hts]

theorem assignKey?_addLine (hjk : j ≠ k) (hqs : ps.assignKey? k.name v = some qs) :
    (ps.addLine (j.name ++ '=' :: w) true).assignKey? k.name v =
      some (qs.addLine (j.name ++ '=' :: w) true) := by
  rw [assignKey?_eq_some_iff]
  rcases assignKey?_eq_some_iff.mp hqs with h | ⟨hnone, h⟩
  · exact .inl (updateFirst?_addLine true h fun _ _ => IsAssignment.assign.ne_nil)
  · refine .inr ⟨?_, updateFirst?_addLine true h fun _ _ => IsAssignment.bare.ne_nil⟩
    rw [updateFirst?_addLine_of_none true hnone (IsAssignment.assign.eq_none (afterKey?_nil k)),
      IsAssignment.assign.line_eq_none hjk.symm]
    rfl

theorem assignKey?_addLine_of_none (hjk : j ≠ k) (hps : ps.assignKey? k.name v = none) :
    (ps.addLine (j.name ++ '=' :: w) true).assignKey? k.name v = none := by
  rw [assignKey?_eq_none_iff] at hps ⊢
  rw [updateFirst?_addLine_of_none true hps.1 (IsAssignment.assign.eq_none (afterKey?_nil k)),
    updateFirst?_addLine_of_none true hps.2 (IsAssignment.bare.eq_none (afterKey?_nil k)),
    IsAssignment.assign.line_eq_none hjk.symm, IsAssignment.bare.line_eq_none hjk.symm]
  exact ⟨rfl, rfl⟩

/-- Where a key is present, its assignment commutes with that of another key. -/
theorem assignKey?_assignKey_of_ne (hjk : j ≠ k) (hqs : ps.assignKey? k.name v = some qs) :
    (ps.assignKey j.name w).assignKey? k.name v = some (qs.assignKey j.name w) := by
  cases hj : ps.assignKey? j.name w with
  | some rs =>
    rw [assignKey_of_some hj]
    rcases assignKey?_eq_some_iff.mp hj with h | ⟨hnone, h⟩
    · obtain ⟨ts, hrs, hts⟩ := assignKey?_of_updateFirst? hjk .assign h hqs
      rw [hrs, assignKey_of_some (assignKey?_eq_some_iff.mpr (.inl hts))]
    · obtain ⟨ts, hrs, hts⟩ := assignKey?_of_updateFirst? hjk .bare h hqs
      rw [hrs, assignKey_of_some (assignKey?_eq_some_iff.mpr
        (.inr ⟨(updateFirst?_of_assignKey? hjk .assign hqs).mpr hnone, hts⟩))]
  | none =>
    obtain ⟨hassign, hbare⟩ := assignKey?_eq_none_iff.mp hj
    have hj' : qs.assignKey? j.name w = none := assignKey?_eq_none_iff.mpr
      ⟨(updateFirst?_of_assignKey? hjk .assign hqs).mpr hassign,
        (updateFirst?_of_assignKey? hjk .bare hqs).mpr hbare⟩
    rw [assignKey_of_none hj, assignKey_of_none hj']
    exact assignKey?_addLine hjk hqs

end Source

end GraphBlock
