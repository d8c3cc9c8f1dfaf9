import Mathlib.Logic.Function.Basic
import GraphBlock.Hint
import GraphBlock.Proofs.Html.Tags
import GraphBlock.Proofs.Text.Escape

/-!
What is shown in a card cannot become a part of its markup, and all of it can be read back. Escaping
leaves no less-than sign, so texts are told apart from tags, and it can be undone.
-/

namespace GraphBlock

namespace Html

variable {t u r s : Text}

def references : List (Text × Char) :=
  [("amp;", '&'), ("lt;", '<'), ("gt;", '>'), ("quot;", '"'), ("#x27;", '\'')]

def unescape : Text → Char × Text
  | '&' :: t =>
    match references.find? (·.1.isPrefixOf t) with
    | some (name, c) => (c, t.drop name.length)
    | none => ('&', t)
  | c :: t => (c, t)
  | [] => (' ', [])

theorem unescape_escapedChar (c : Char) (t : Text) : unescape (escapedChar c ++ t) = (c, t) := by
  unfold escapedChar
  split
  · rfl
  · rfl
  · rfl
  · rfl
  · rfl
  · next hand _ _ _ _ => exact unescape.eq_2 c t hand

theorem not_mem_escapedChar (c : Char) : '<' ∉ escapedChar c := by
  unfold escapedChar
  split
  · decide
  · decide
  · decide
  · decide
  · decide
  · next _ hless _ _ _ => exact fun h => hless (List.mem_singleton.mp h).symm

theorem escapedChar_ne_nil (c : Char) : escapedChar c ≠ [] := by
  unfold escapedChar
  split
  · decide
  · decide
  · decide
  · decide
  · decide
  · exact List.cons_ne_nil _ _

theorem not_mem_escaped (t : Text) : '<' ∉ escaped t := by
  intro h
  obtain ⟨c, -, hc⟩ := List.mem_flatMap.mp h
  exact not_mem_escapedChar c hc

theorem ne_escapedChar_append (hr : r.head? = some '<') (c : Char) (v : Text) :
    r ≠ escapedChar c ++ v := by
  rintro rfl
  obtain ⟨d, e, hcons⟩ := List.exists_cons_of_ne_nil (escapedChar_ne_nil c)
  have hmem := not_mem_escapedChar c
  rw [hcons] at hr hmem
  cases hr
  exact hmem List.mem_cons_self

theorem escaped_append_inj (hr : r.head? = some '<') (hs : s.head? = some '<')
    (h : escaped t ++ r = escaped u ++ s) : t = u ∧ r = s :=
  Text.flatMap_append_inj unescape_escapedChar (ne_escapedChar_append hr)
    (ne_escapedChar_append hs) h

theorem hasTags_escaped (t : Text) : HasTags (escaped t) [] :=
  hasTags_of_not_mem (not_mem_escaped t)

end Html

namespace Hint

open Html

variable {t u r s : Text}

theorem code_eq (t : Text) : code t = "<code>" ++ escaped t ++ "</code>" := rfl

theorem code_append_inj (h : code t ++ r = code u ++ s) : t = u ∧ r = s := by
  simp only [code_eq, List.append_assoc, List.append_cancel_left_eq] at h
  obtain ⟨htu, hrest⟩ := escaped_append_inj rfl rfl h
  exact ⟨htu, List.append_cancel_left hrest⟩

def codeTags : List Tag := [.opening "code" [], .ending "code"]

theorem hasTags_code (t : Text) : HasTags (code t) codeTags := by
  have hstart : HasTags "<code>" [.opening "code" []] := .ofList (by decide)
  have hend : HasTags "</code>" [.ending "code"] := .ofList (by decide)
  exact (hstart.append (hasTags_escaped t)).append hend

def alternative : Option Text → Text
  | some s => code s
  | none => code sampleLatex ++ " =&gt; " ++ code samplePlain

/-- A spelling that is proposed is followed by a bracket, the first part of the sample is not. -/
theorem alternative_append_inj {a b : Option Text} (hr : r.head? = some ')')
    (hs : s.head? = some ')') (h : alternative a ++ r = alternative b ++ s) : a = b ∧ r = s := by
  cases a with
  | none =>
    cases b with
    | none => exact ⟨rfl, List.append_cancel_left h⟩
    | some u =>
      simp only [alternative, List.append_assoc] at h
      rw [← (code_append_inj h).2] at hs
      cases hs
  | some t =>
    cases b with
    | none =>
      simp only [alternative, List.append_assoc] at h
      rw [(code_append_inj h).2] at hr
      cases hr
    | some u =>
      obtain ⟨htu, hrs⟩ := code_append_inj h
      exact ⟨congrArg some htu, hrs⟩

def alternativeTags (suggested : Bool) : List Tag :=
  if suggested then codeTags else codeTags ++ codeTags

theorem hasTags_alternative (o : Option Text) :
    HasTags (alternative o) (alternativeTags o.isSome) := by
  cases o with
  | none =>
    have hbetween : HasTags " =&gt; " [] := .ofList (by decide)
    exact ((hasTags_code sampleLatex).append hbetween).append (hasTags_code samplePlain)
  | some s => exact hasTags_code s

/-! The texts of a view around what it shows. -/

def viewStart : Text :=
  "<span><span>You may have tried to use the LaTeX syntax in the graph restriction (</span>"

def viewMiddle : Text := "<span>), please use some sort of an alternative (e.g "

def viewEnd : Text := ") as this is not supported by Desmos.</span></span>"

theorem view_eq (h : Hint) :
    h.view = viewStart ++ code h.segment ++ viewMiddle ++ alternative h.suggestion ++ viewEnd := by
  obtain ⟨segment, suggestion⟩ := h
  cases suggestion with
  | none => rfl
  | some s => rfl

theorem view_append_inj {g h : Hint} (heq : g.view ++ r = h.view ++ s) : g = h ∧ r = s := by
  obtain ⟨gsegment, gsuggestion⟩ := g
  obtain ⟨hsegment, hsuggestion⟩ := h
  simp only [view_eq, List.append_assoc, List.append_cancel_left_eq] at heq
  obtain ⟨rfl, hmiddle⟩ := code_append_inj heq
  obtain ⟨rfl, hend⟩ := alternative_append_inj rfl rfl (List.append_cancel_left hmiddle)
  exact ⟨rfl, List.append_cancel_left hend⟩

def viewTags (suggested : Bool) : List Tag :=
  [Tag.opening "span" [], Tag.opening "span" [], Tag.ending "span"] ++ codeTags ++
    [Tag.opening "span" []] ++ alternativeTags suggested ++ [Tag.ending "span", Tag.ending "span"]

theorem hasTags_view (h : Hint) : HasTags h.view (viewTags h.suggestion.isSome) := by
  have hstart : HasTags viewStart
      [.opening "span" [], .opening "span" [], .ending "span"] := .ofList (by decide)
  have hmiddle : HasTags viewMiddle [.opening "span" []] := .ofList (by decide)
  have hend : HasTags viewEnd [.ending "span", .ending "span"] := .ofList (by decide)
  rw [view_eq]
  exact (((hstart.append (hasTags_code h.segment)).append hmiddle).append
    (hasTags_alternative h.suggestion)).append hend

end Hint

namespace Card

open Html

/-! The texts of a card around what it shows. -/

def start : Text :=
  "<div class=\"desmos-graph-error\" style=\"padding:20px; background-color:#f44336; " ++
    "color:white;\"><div><strong>Desmos Graph Error: </strong><span>"

def middle : Text := "</span></div>"

def hintStart : Text :=
  "<div class=\"desmos-graph-error-hint\" style=\"margin-top:10px; padding-top:10px; " ++
    "border-top:1px solid rgba(255,255,255,0.5);\">"

def divEnd : Text := "</div>"

theorem hintMarkup_eq (h : Hint) : hintMarkup h = hintStart ++ h.view ++ divEnd := rfl

theorem html_eq (m : Text) (h : Option Hint) :
    html m h = start ++ escaped m ++ middle ++ h.elim [] hintMarkup ++ divEnd := rfl

def hintStartTag : Tag :=
  .opening "div" [("class", "desmos-graph-error-hint"),
    ("style", "margin-top:10px; padding-top:10px; border-top:1px solid rgba(255,255,255,0.5);")]

def hintTags (suggested : Bool) : List Tag :=
  [hintStartTag] ++ Hint.viewTags suggested ++ [Tag.ending "div"]

theorem hasTags_hintMarkup (h : Hint) : HasTags (hintMarkup h) (hintTags h.suggestion.isSome) := by
  have hstart : HasTags hintStart [hintStartTag] := .ofList_append (by decide +kernel)
  have hend : HasTags divEnd [.ending "div"] := .ofList (by decide)
  rw [hintMarkup_eq]
  exact (hstart.append (Hint.hasTags_view h)).append hend

def startTags : List Tag :=
  [.opening "div" [("class", "desmos-graph-error"),
      ("style", "padding:20px; background-color:#f44336; color:white;")],
    .opening "div" [], .opening "strong" [], .ending "strong", .opening "span" []]

def tags (suggested? : Option Bool) : List Tag :=
  startTags ++ [Tag.ending "span", Tag.ending "div"] ++ suggested?.elim [] hintTags ++
    [Tag.ending "div"]

theorem hasTags_html (m : Text) (h : Option Hint) :
    HasTags (html m h) (tags (h.map (·.suggestion.isSome))) := by
  have hstart : HasTags start startTags := .ofList_append (by decide +kernel)
  have hmiddle : HasTags middle [.ending "span", .ending "div"] := .ofList (by decide)
  have hend : HasTags divEnd [.ending "div"] := .ofList (by decide)
  have hhint : HasTags (h.elim [] hintMarkup)
      ((h.map (·.suggestion.isSome)).elim [] hintTags) := by
    cases h with
    | none => exact hasTags_of_not_mem (List.not_mem_nil)
    | some h => exact hasTags_hintMarkup h
  rw [html_eq]
  exact (((hstart.append (hasTags_escaped m)).append hmiddle).append hhint).append hend

theorem html_injective : Function.Injective2 html := by
  intro m n g h heq
  simp only [html_eq, List.append_assoc, List.append_cancel_left_eq] at heq
  obtain ⟨rfl, hmiddle⟩ := escaped_append_inj rfl rfl heq
  refine ⟨rfl, ?_⟩
  have hbehind := List.append_cancel_left hmiddle
  cases g with
  | none =>
    cases h with
    | none => rfl
    | some h => cases hbehind
  | some g =>
    cases h with
    | none => cases hbehind
    | some h =>
      simp only [Option.elim_some, hintMarkup_eq, List.append_assoc,
        List.append_cancel_left_eq] at hbehind
      exact congrArg some (Hint.view_append_inj hbehind).1

/-- What is shown adds no tag and no attribute to a card, and the card tells all that it shows. -/
theorem html_sealed :
    (∀ message hint, Html.tags (html message hint) = tags (hint.map (·.suggestion.isSome))) ∧
      Function.Injective2 html :=
  ⟨fun message hint => (hasTags_html message hint).tags_eq, html_injective⟩

end Card

end GraphBlock
