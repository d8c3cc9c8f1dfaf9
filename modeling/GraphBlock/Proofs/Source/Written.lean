import GraphBlock.Proofs.Equation.Line
import GraphBlock.Proofs.Source.Piece
import GraphBlock.Source

namespace GraphBlock.Source

open Overrides

variable {settings : List Setting}

theorem flatMap_written (settings : List Setting) :
    settings.flatMap (fun s => s.written ++ ['\n']) =
      (settings.map Setting.written).flatMap fun t => t ++ ['\n'] := by
  rw [List.flatMap_map]

theorem clear_settings (hsettings : ∀ s ∈ settings, s.Spellable) :
    Clear (settings.flatMap fun s => s.written ++ ['\n']) := by
  rw [flatMap_written]
  apply clear_lines
  intro t ht
  obtain ⟨s, hs, rfl⟩ := List.mem_map.mp ht
  have hvalue := isValue_directive (hsettings s hs)
  have hname : ¬ delimiter <:+: s.key.name := by
    intro h
    exact s.key.dash_not_mem_name (h.subset (mem_delimiter.mpr rfl))
  rw [Setting.written, delimiter_infix_cons_iff (by decide), not_or]
  exact ⟨hname, hvalue.not_infix⟩

theorem split_write (lines : List Text) (hsettings : ∀ s ∈ settings, s.Spellable) :
    split (write settings lines) = (settings.flatMap (fun s => s.written ++ ['\n']),
      lines.flatMap fun line => '\n' :: line) := by
  rw [split, write, breakDelimiter?_append _ (clear_settings hsettings)]
  rfl

theorem directives_settings (hsettings : ∀ s ∈ settings, s.Spellable) :
    directives (settings.flatMap fun s => s.written ++ ['\n']) =
      settings.map fun s => ⟨s.key.name, some s.toValue.directive⟩ := by
  have hdelimiter : ∀ t ∈ settings.map Setting.written, ∀ c ∈ t, isDelimiter c = false := by
    intro t ht
    obtain ⟨s, hs, rfl⟩ := List.mem_map.mp ht
    exact (isValue_directive (hsettings s hs)).line_not_delimiter s.key
  have hpiece : ∀ s ∈ settings, Directive.ofPiece? s.written =
      some ⟨s.key.name, some s.toValue.directive⟩ := by
    intro s hs
    exact ofPiece?_line s.key (isValue_directive (hsettings s hs))
  rw [flatMap_written, directives_lines hdelimiter, List.filterMap_map,
    ← List.filterMap_eq_map]
  exact List.filterMap_congr hpiece

theorem exists_reads_settings (hsettings : ∀ s ∈ settings, s.Typed) :
    ∃ l, List.Forall₂ Setting.Same l settings ∧
      List.Forall₂ Reads (settings.map fun s => ⟨s.key.name, some s.toValue.directive⟩) l := by
  induction settings with
  | nil => exact ⟨[], .nil, .nil⟩
  | cons s l ih =>
    obtain ⟨t, hread, hsame⟩ := Setting.read_directive (hsettings s List.mem_cons_self)
    obtain ⟨m, hm, hreads⟩ := ih fun t ht => hsettings t (List.mem_cons_of_mem _ ht)
    exact ⟨t :: m, .cons hsame hm, .cons (reads_line hread) hreads⟩

/-- The written settings are read as a record that agrees with the one they were written from. -/
theorem exists_parse_settings {o : Overrides} (ho : ∀ s ∈ o.entries, s.Typed) :
    ∃ p, Overrides.parse (some (o.entries.flatMap fun s => s.written ++ ['\n'])) = .ok p ∧
      p.Same o := by
  obtain ⟨l, hsame, hreads⟩ := exists_reads_settings ho
  have hkeys : l.map Setting.key = o.entries.map Setting.key := by
    rw [← List.forall₂_eq_eq_eq, List.forall₂_map_left_iff, List.forall₂_map_right_iff]
    exact hsame.imp fun _ _ h => h.key_eq
  refine ⟨⟨l, by rw [hkeys]; exact o.distinct⟩, ?_, hsame⟩
  rw [parse_eq_ok_iff, directives_settings fun s hs => (ho s hs).spellable]
  exact hreads

end GraphBlock.Source
