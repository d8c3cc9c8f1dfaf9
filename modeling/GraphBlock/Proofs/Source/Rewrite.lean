import GraphBlock.Proofs.Source.Assignment
import GraphBlock.Proofs.Setting.Overrides

namespace GraphBlock

namespace Pieces

def assign (ps : Pieces) (s : Setting) : Pieces := ps.assignKey s.key.name s.toValue.directive

variable {ps qs : Pieces} {s : Setting} {l : List Setting}

theorem foldl_assign_of_ne {k : Key} {v : Text} (hqs : ps.assignKey? k.name v = some qs)
    (hl : k ∉ l.map Setting.key) :
    (l.foldl assign ps).assignKey? k.name v = some (l.foldl assign qs) := by
  induction l generalizing ps qs with
  | nil => exact hqs
  | cons t l ih =>
    rw [List.map_cons, List.mem_cons, not_or] at hl
    exact ih (Source.assignKey?_assignKey_of_ne (Ne.symm hl.1) hqs) hl.2

/-- An update after others is the same as the others with that update put among them. -/
theorem foldl_assign_put (hl : (l.map Setting.key).Nodup)
    (hv : ∀ t ∈ l, Source.IsValue t.toValue.directive) :
    (s.put l).foldl assign ps = (l.foldl assign ps).assign s := by
  induction l generalizing ps with
  | nil => rfl
  | cons t l ih =>
    rw [List.map_cons, List.nodup_cons] at hl
    by_cases hk : t.key = s.key
    · have hsame :
          (ps.assign t).assignKey? s.key.name s.toValue.directive = some (ps.assign s) := by
        rw [assign, hk]
        exact Source.assignKey?_assignKey (hv t List.mem_cons_self)
      simp only [Setting.put, if_pos hk, List.foldl_cons]
      exact (Source.assignKey_of_some (foldl_assign_of_ne hsame (hk ▸ hl.1))).symm
    · simp only [Setting.put, if_neg hk, List.foldl_cons]
      exact ih hl.2 fun u hu => hv u (List.mem_cons_of_mem _ hu)

theorem foldl_assign_putAll (o : Overrides) (hl : ∀ t ∈ l, Source.IsValue t.toValue.directive)
    (ho : ∀ t ∈ o.entries, Source.IsValue t.toValue.directive) :
    (o.putAll l).entries.foldl assign ps = l.foldl assign (o.entries.foldl assign ps) := by
  induction l generalizing o with
  | nil => rfl
  | cons s l ih =>
    rw [List.foldl_cons, ← foldl_assign_put o.distinct ho]
    exact ih (o.put s) (fun t ht => hl t (List.mem_cons_of_mem _ ht))
      (Overrides.forall_put (hl s List.mem_cons_self) ho)

theorem proper_assign (hps : ps.Proper Overrides.isDelimiter)
    (hs : Source.IsValue s.toValue.directive) : (ps.assign s).Proper Overrides.isDelimiter := by
  rw [assign]
  cases h : ps.assignKey? s.key.name s.toValue.directive with
  | some qs =>
    rw [Source.assignKey_of_some h]
    rcases Source.assignKey?_eq_some_iff.mp h with h | ⟨-, h⟩
    · exact hps.updateFirst? (fun p q => Source.IsAssignment.assign.not_delimiter hs) h
    · exact hps.updateFirst? (fun p q => Source.IsAssignment.bare.not_delimiter hs) h
  | none =>
    rw [Source.assignKey_of_none h]
    exact proper_addLine true hps (hs.line_not_delimiter s.key)

theorem not_infix_updateFirst? {f : Text → Option Text} {tail : Text}
    (hps : ps.Proper Overrides.isDelimiter)
    (hf : ∀ p q t, f p = some q → ¬ Source.delimiter <:+: p ++ t → ¬ Source.delimiter <:+: q ++ t)
    (hqs : ps.updateFirst? f = some qs) (htail : ¬ Source.delimiter <:+: ps.text ++ tail) :
    ¬ Source.delimiter <:+: qs.text ++ tail := by
  induction ps generalizing qs with
  | last p =>
    obtain ⟨q, hq, rfl⟩ := Option.map_eq_some_iff.mp hqs
    exact hf p q tail hq htail
  | closed p d rest ih =>
    obtain ⟨-, hd, hrest⟩ := hps
    have hdash : d ≠ '-' := by
      rintro rfl
      cases hd
    rw [text, List.append_assoc, List.cons_append, Source.delimiter_infix_cons_iff hdash,
      not_or] at htail
    rw [updateFirst?] at hqs
    split at hqs
    · next q hq =>
      cases hqs
      rw [text, List.append_assoc, List.cons_append, Source.delimiter_infix_cons_iff hdash, not_or]
      have hnew := hf p q [] hq (by simpa using htail.1)
      exact ⟨by simpa using hnew, htail.2⟩
    · obtain ⟨rs, hrs, rfl⟩ := Option.map_eq_some_iff.mp hqs
      rw [text, List.append_assoc, List.cons_append, Source.delimiter_infix_cons_iff hdash, not_or]
      exact ⟨htail.1, ih hrest hrs htail.2⟩

theorem not_infix_addLine {line : Text} (fresh : Bool) (hps : ps.Proper Overrides.isDelimiter)
    (hline : ¬ Source.delimiter <:+: line) (hhead : ∀ c ∈ line.head?, c ≠ '-')
    (hclear : ¬ Source.delimiter <:+: ps.text) :
    Source.Clear (ps.addLine line fresh).text := by
  have hbreak : ('\n' : Char) ≠ '-' := by decide
  have hmem : ∀ c ∈ line.head?, c ∉ Source.delimiter := by
    intro c hc hdash
    exact hhead c hc (Source.mem_delimiter.mp hdash)
  rw [text_addLine fresh hps, Source.Clear, List.append_assoc, List.singleton_append,
    Source.delimiter_infix_cons_iff hbreak, Source.infix_append_iff_of_head hmem]
  rintro ((hin | hin) | hin)
  · split at hin
    · exact hclear (by simpa using hin)
    · rcases (Source.delimiter_infix_cons_iff hbreak).mp hin with hin | hin
      · exact hclear hin
      · exact Source.clear_nil (List.infix_append_of_infix_left hin)
  · exact hline hin
  · exact Source.clear_nil hin

theorem clear_assign (hps : ps.Proper Overrides.isDelimiter)
    (hs : Source.IsValue s.toValue.directive) (hclear : Source.Clear ps.text) :
    Source.Clear (ps.assign s).text := by
  rw [assign]
  cases h : ps.assignKey? s.key.name s.toValue.directive with
  | some qs =>
    rw [Source.assignKey_of_some h]
    rcases Source.assignKey?_eq_some_iff.mp h with h | ⟨-, h⟩
    · exact not_infix_updateFirst? hps (fun _ _ _ => Source.IsAssignment.assign.not_infix hs) h
        hclear
    · exact not_infix_updateFirst? hps (fun _ _ _ => Source.IsAssignment.bare.not_infix hs) h
        hclear
  | none =>
    have hequals : ('=' : Char) ≠ '-' := by decide
    rw [Source.assignKey_of_none h]
    refine not_infix_addLine true hps ?_ ?_ hclear.not_infix
    · rw [Source.delimiter_infix_cons_iff hequals, not_or]
      refine ⟨fun hin => s.key.dash_not_mem_name (hin.subset ?_), hs.not_infix⟩
      exact Source.mem_delimiter.mpr rfl
    · intro c hc hdash
      rw [List.head?_append_of_ne_nil _ s.key.name_ne_nil] at hc
      exact s.key.dash_not_mem_name (hdash ▸ List.mem_of_mem_head? hc)

end Pieces

namespace Source

open Pieces

variable {l : List Setting}

def assignments (l : List Setting) : List (Key × Text) :=
  l.map fun s => (s.key, s.toValue.directive)

def assignAll (settings : Text) (l : List Setting) : Text :=
  (l.foldl assign (cut Overrides.isDelimiter settings)).text

theorem cut_assignAll (settings : Text) (hl : ∀ s ∈ l, IsValue s.toValue.directive) :
    cut Overrides.isDelimiter (assignAll settings l) =
      l.foldl assign (cut Overrides.isDelimiter settings) := by
  apply cut_text
  have : ∀ ps : Pieces, ps.Proper Overrides.isDelimiter →
      (l.foldl assign ps).Proper Overrides.isDelimiter := by
    induction l with
    | nil => exact fun _ h => h
    | cons s l ih =>
      intro ps hps
      exact ih (fun t ht => hl t (List.mem_cons_of_mem _ ht)) _
        (proper_assign hps (hl s List.mem_cons_self))
  exact this _ (proper_cut _ _)

theorem foldl_setDirective (settings : Text) (hl : ∀ s ∈ l, IsValue s.toValue.directive) :
    (assignments l).foldl (fun t (k, v) => setDirective t k.name v) settings =
      assignAll settings l := by
  induction l generalizing settings with
  | nil => simp [assignments, assignAll]
  | cons s l ih =>
    have hs := hl s List.mem_cons_self
    have hone : cut Overrides.isDelimiter (setDirective settings s.key.name s.toValue.directive) =
        (cut Overrides.isDelimiter settings).assign s := by
      rw [setDirective_eq]
      exact cut_text (proper_assign (proper_cut _ _) hs)
    have ih := ih (setDirective settings s.key.name s.toValue.directive)
      fun t ht => hl t (List.mem_cons_of_mem _ ht)
    rw [assignments, List.map_cons, List.foldl_cons]
    rw [assignments] at ih
    rw [ih, assignAll, assignAll, hone, List.foldl_cons]

theorem clear_assignAll {settings : Text} (hl : ∀ s ∈ l, IsValue s.toValue.directive)
    (hclear : Clear settings) : Clear (assignAll settings l) := by
  have : ∀ ps : Pieces, ps.Proper Overrides.isDelimiter → Clear ps.text →
      Clear (l.foldl assign ps).text := by
    induction l with
    | nil => exact fun _ _ h => h
    | cons s l ih =>
      intro ps hps hcl
      have hs := hl s List.mem_cons_self
      exact ih (fun t ht => hl t (List.mem_cons_of_mem _ ht)) _ (proper_assign hps hs)
        (clear_assign hps hs hcl)
  exact this _ (proper_cut _ _) (by simpa using hclear)

theorem clear_split (source : Text) : Clear (split source).1 := by
  rw [split]
  cases h : breakDelimiter? source with
  | none => exact clear_nil
  | some x => exact (breakDelimiter?_eq_some_iff.mp h).2

theorem split_append {a : Text} (b : Text) (ha : Clear a) :
    split (a ++ delimiter ++ b) = (a, b) := by
  rw [split, breakDelimiter?_append b ha]
  rfl

theorem rewrite_eq (source : Text) (hl : ∀ s ∈ l, IsValue s.toValue.directive) :
    rewrite source (assignments l) =
      assignAll (split source).1 l ++ delimiter ++ (split source).2 := by
  rw [rewrite, ← foldl_setDirective _ hl]

theorem split_rewrite (source : Text) (hl : ∀ s ∈ l, IsValue s.toValue.directive) :
    split (rewrite source (assignments l)) = (assignAll (split source).1 l, (split source).2) := by
  rw [rewrite_eq source hl, split_append _ (clear_assignAll hl (clear_split source))]

/-- Updates one after the other are one update with the merged record. -/
theorem rewrite_rewrite (source : Text) (u v : Overrides)
    (hu : ∀ s ∈ u.entries, IsValue s.toValue.directive)
    (hv : ∀ s ∈ v.entries, IsValue s.toValue.directive) :
    rewrite (rewrite source (assignments u.entries)) (assignments v.entries) =
      rewrite source (assignments (u.merge v).entries) := by
  have hsettings : assignAll (assignAll (split source).1 u.entries) v.entries =
      assignAll (split source).1 (u.putAll v.entries).entries := by
    rw [assignAll, cut_assignAll _ hu, ← foldl_assign_putAll u hv hu, assignAll]
  calc rewrite (rewrite source (assignments u.entries)) (assignments v.entries)
      = assignAll (assignAll (split source).1 u.entries) v.entries ++ delimiter ++
          (split source).2 := by rw [rewrite_eq _ hv, split_rewrite source hu]
    _ = assignAll (split source).1 (u.merge v).entries ++ delimiter ++ (split source).2 := by
      rw [hsettings, Overrides.merge]
    _ = rewrite source (assignments (u.merge v).entries) :=
      (rewrite_eq source (Overrides.forall_putAll hv hu)).symm

theorem update_toRecord (source : Text) (l : List Setting) :
    update source (Overrides.toRecord l) = .ok (rewrite source (assignments l)) := by
  have hspelled : spelled (Overrides.toRecord l) = .ok (assignments l) := by
    induction l with
    | nil => rfl
    | cons s l ih =>
      rw [spelled] at ih ⊢
      simp only [Overrides.toRecord, List.map_cons, List.mapM_cons,
        Key.named?_eq_some_iff.mpr rfl] at ih ⊢
      rw [ih]
      rfl
  rw [update, hspelled]
  rfl

end Source

end GraphBlock
