import GraphBlock.Graph.Calculator
import GraphBlock.Proofs.Graph.Agreement
import GraphBlock.Proofs.Json.Unique
import Mathlib.Data.List.Nodup

/-!
The canonical text of the content tells graphs apart that are drawn differently. From it the content
is recovered, and from the content everything that the calculator is told.
-/

namespace GraphBlock

theorem Style.value_injective {s t : Style} (h : s.value = t.value) : s = t := by
  cases s with
  | line s =>
    cases t with
    | line t => cases s <;> cases t <;> first | rfl | exact absurd h (by decide)
    | point t => cases s <;> cases t <;> exact absurd h (by decide)
  | point s =>
    cases t with
    | line t => cases s <;> cases t <;> exact absurd h (by decide)
    | point t => cases s <;> cases t <;> first | rfl | exact absurd h (by decide)

namespace Equation

def fields (e : Equation) : List (Text × Json) := e.toRecord.map fun (k, v) => (k, v.json)

theorem sublist_optional {α : Type} (o : Option α) (f : α → Value) (k : Text) :
    ((o.toList.map fun x => (k, f x)).map Prod.fst).Sublist [k] := by
  cases o <;> simp

theorem sublist_fields (e : Equation) :
    (e.fields.map Prod.fst).Sublist ["equation".toList, "restrictions".toList, "style".toList,
      "color".toList, "hidden".toList, "label".toList] := by
  have hkeys : e.fields.map Prod.fst = e.toRecord.map Prod.fst := by
    rw [fields, List.map_map]
    rfl
  rw [hkeys, toRecord]
  simp only [List.map_append]
  exact (((((List.Sublist.refl _).append (sublist_optional _ _ _)).append
    (sublist_optional _ _ _)).append (sublist_optional _ _ _)).append
    (sublist_optional _ _ _)).append (sublist_optional _ _ _)

theorem json_toValue (e : Equation) : e.toValue.json = .object e.fields := by
  have hentries : Value.jsonEntries (e.toRecord.map fun (k, v) => (.text k, v)) = e.fields := by
    rw [Value.jsonEntries_eq_map, List.map_map]
    rfl
  have hdistinct : (e.fields.map Prod.fst).Nodup := e.sublist_fields.nodup (by decide)
  rw [toValue, Value.json, hentries, Json.ofEntries_eq hdistinct]

def field? (e : Equation) (key : Text) : Option Json := e.fields.lookup key

theorem lookup_optional {α : Type} (o : Option α) (f : α → Value) (key k : Text) :
    ((o.toList.map fun x => (k, f x)).map fun (k, v) => (k, Value.json v)).lookup key =
      if key = k then o.map fun x => (f x).json else none := by
  cases o with
  | none => simp
  | some x =>
    by_cases h : key = k
    · simp [h]
    · have hne : (key == k) = false := beq_eq_false_iff_ne.mpr h
      simp [List.lookup_cons, h, hne]

theorem field?_eq (e : Equation) (key : Text) :
    e.field? key =
      (((((if key = "equation".toList then some (Json.string e.expression) else none).or
      (if key = "restrictions".toList then
        e.restrictions.map fun rs => (Value.list (rs.map .text)).json else none)).or
      (if key = "style".toList then e.style.map fun s => (Value.text s.value).json else none)).or
      (if key = "color".toList then e.color.map fun c => (Value.text c.value).json else none)).or
      (if key = "hidden".toList then e.hidden.map fun b => (Value.bool b).json else none)).or
      (if key = "label".toList then e.label.map fun t => (Value.text t).json else none) := by
  have hexpression := lookup_optional (some e.expression) Value.text key "equation".toList
  simp only [Option.toList_some, List.map_cons, List.map_nil, Option.map_some] at hexpression
  rw [field?, fields, toRecord]
  simp only [List.map_append, List.lookup_append, lookup_optional, List.map_cons, List.map_nil,
    hexpression]
  rfl

theorem json_texts_inj {rs ss : List Text}
    (h : (Value.list (rs.map .text)).json = (Value.list (ss.map .text)).json) : rs = ss := by
  have hitems : ∀ rs : List Text, Value.jsonItems (rs.map .text) = rs.map .string := by
    intro rs
    rw [Value.jsonItems_eq_map, List.map_map]
    rfl
  rw [Value.json, Value.json, hitems, hitems, Json.array.injEq] at h
  exact List.map_injective_iff.mpr (fun _ _ => Json.string.inj) h

/-- What the tree of an equation tells about it: everything but how its color is given. -/
theorem eq_of_json_eq {e f : Equation} (h : e.toValue.json = f.toValue.json) :
    e.expression = f.expression ∧ e.restrictions = f.restrictions ∧ e.style = f.style ∧
      e.color.map Color.value = f.color.map Color.value ∧ e.hidden = f.hidden ∧
      e.label = f.label := by
  rw [json_toValue, json_toValue, Json.object.injEq] at h
  have hfield : ∀ key, e.field? key = f.field? key := by
    intro key
    rw [field?, field?, h]
  have hexpression : e.expression = f.expression := by
    simpa [field?_eq] using hfield "equation"
  have hrestrictions : e.restrictions.map (fun rs => (Value.list (rs.map .text)).json) =
      f.restrictions.map fun rs => (Value.list (rs.map .text)).json := by
    simpa [field?_eq] using hfield "restrictions"
  have hstyle : e.style.map (fun s => (Value.text s.value).json) =
      f.style.map fun s => (Value.text s.value).json := by
    simpa [field?_eq] using hfield "style"
  have hcolor : e.color.map (fun c => (Value.text c.value).json) =
      f.color.map fun c => (Value.text c.value).json := by
    simpa [field?_eq] using hfield "color"
  have hhidden : e.hidden.map (fun b => (Value.bool b).json) =
      f.hidden.map fun b => (Value.bool b).json := by
    simpa [field?_eq] using hfield "hidden"
  have hlabel : e.label.map (fun t => (Value.text t).json) =
      f.label.map fun t => (Value.text t).json := by
    simpa [field?_eq] using hfield "label"
  have htext : Function.Injective fun t => (Value.text t).json := by
    intro _ _
    exact Json.string.inj
  have hbool : Function.Injective fun b => (Value.bool b).json := by
    intro _ _
    exact Json.bool.inj
  refine ⟨hexpression, ?_, ?_, ?_, ?_, ?_⟩
  · exact Option.map_injective (fun _ _ => json_texts_inj) hrestrictions
  · exact Option.map_injective (htext.comp fun _ _ => Style.value_injective) hstyle
  · apply Option.map_injective htext
    rw [Option.map_map, Option.map_map]
    exact hcolor
  · exact Option.map_injective hbool hhidden
  · exact Option.map_injective htext hlabel

end Equation

namespace Setting

def Alike (s t : Setting) : Prop := s.key = t.key ∧ s.toValue.json = t.toValue.json

theorem Alike.refl (s : Setting) : s.Alike s := ⟨rfl, rfl⟩

theorem same_of_alike_size {d : Dimension} {m n : Number} (h : (size d m).Alike (size d n)) :
    m.Same n :=
  Value.json_ofNumber_eq_iff.mp h.2

theorem same_of_alike_edge {e : Edge} {x y : Number} (h : (edge e x).Alike (edge e y)) : x.Same y :=
  Value.json_ofNumber_eq_iff.mp h.2

theorem eq_of_alike_flag {f : Flag} {a b : Bool} (h : (flag f a).Alike (flag f b)) : a = b :=
  Json.bool.inj h.2

theorem eq_of_alike_degreeMode {a b : DegreeMode} (h : (degreeMode a).Alike (degreeMode b)) :
    a = b := by
  have hvalue : Vocabulary.value a = Vocabulary.value b := Json.string.inj h.2
  cases a <;> cases b <;> first | rfl | exact absurd hvalue (by decide)

theorem value_eq_of_alike_defaultColor {a b : Option Color}
    (h : (defaultColor a).Alike (defaultColor b)) : a.map Color.value = b.map Color.value := by
  have hcolor : ∀ c : Color, c.toValue.json = .string c.value := by
    intro c
    cases c <;> rfl
  have hjson := h.2
  cases a with
  | none =>
    cases b with
    | none => rfl
    | some d =>
      rw [toValue, toValue, hcolor] at hjson
      cases hjson
  | some c =>
    cases b with
    | none =>
      rw [toValue, toValue, hcolor] at hjson
      cases hjson
    | some d =>
      rw [toValue, toValue, hcolor, hcolor] at hjson
      exact congrArg some (Json.string.inj hjson)

end Setting

namespace Settings

def Alike (s t : Settings) : Prop := ∀ k, (s.get k).Alike (t.get k)

theorem alike_ofOverrides {o p : Overrides}
    (h : (o.entries.map fun s => (s.key.name, s.toValue.json)) =
      p.entries.map fun s => (s.key.name, s.toValue.json)) :
    (ofOverrides o).Alike (ofOverrides p) := by
  -- setting by setting, from any settings that are already alike
  have hfold : ∀ {l m : List Setting} {s t : Settings},
      (l.map fun s => (s.key.name, s.toValue.json)) =
        m.map (fun s => (s.key.name, s.toValue.json)) →
      s.Alike t → (l.foldl set s).Alike (m.foldl set t) := by
    intro l
    induction l with
    | nil =>
      intro m s t hlm hst
      rw [List.map_nil, eq_comm, List.map_eq_nil_iff] at hlm
      rw [hlm]
      exact hst
    | cons a l ih =>
      intro m s t hlm hst
      cases m with
      | nil => cases hlm
      | cons b m =>
        rw [List.map_cons, List.map_cons, List.cons.injEq, Prod.mk.injEq] at hlm
        have hab : a.Alike b := ⟨Key.name_injective hlm.1.1, hlm.1.2⟩
        apply ih hlm.2
        intro k
        rw [get_set, get_set, hab.1]
        split
        · exact hab
        · exact hst k
  exact hfold h fun k => .refl _

end Settings

namespace Calculator

/-- States that draw the same, numbers compared by their places. -/
structure State.Same (s t : State) : Prop where
  width : s.width.Same t.width
  height : s.height.Same t.height
  options : s.options = t.options
  left : s.mathBounds.left.Same t.mathBounds.left
  right : s.mathBounds.right.Same t.mathBounds.right
  bottom : s.mathBounds.bottom.Same t.mathBounds.bottom
  top : s.mathBounds.top.Same t.mathBounds.top
  expressions : s.expressions = t.expressions

theorem options_eq {s t : Settings} (h : s.Alike t) :
    Options.ofSettings s = Options.ofSettings t := by
  have hgrid : s.grid = t.grid := Setting.eq_of_alike_flag (h (.flag .grid))
  have hlock : s.lock = t.lock := Setting.eq_of_alike_flag (h (.flag .lock))
  have hnumbers : s.hideAxisNumbers = t.hideAxisNumbers :=
    Setting.eq_of_alike_flag (h (.flag .hideAxisNumbers))
  have hmode : s.degreeMode = t.degreeMode := Setting.eq_of_alike_degreeMode (h .degreeMode)
  rw [Options.ofSettings, Options.ofSettings, hgrid, hlock, hnumbers, hmode]

/-- An expression depends on the tree of its equation and on the value of the default color. -/
theorem ofEquation_painted_eq {e f : Equation} {c d : Option Color}
    (hef : e.toValue.json = f.toValue.json) (hcd : c.map Color.value = d.map Color.value)
    (id : Option Text) :
    Expression.ofEquation (e.painted c) id = Expression.ofEquation (f.painted d) id := by
  obtain ⟨hexpression, hrestrictions, hstyle, hcolor, hhidden, hlabel⟩ := Equation.eq_of_json_eq hef
  have hpainted : ∀ a b : Option Color,
      (a.or b).map Color.value = (a.map Color.value).or (b.map Color.value) := by
    intro a b
    cases a <;> rfl
  simp only [Expression.ofEquation, Equation.painted, hexpression, hrestrictions, hstyle, hhidden,
    hlabel, hpainted, hcolor, hcd]

end Calculator

namespace Graph

open Calculator

theorem json_content_object (g : Graph) :
    g.content.json = .object
      [("equations".toList, .array (g.source.map fun e => e.toValue.json)),
        ("settings".toList,
          .object (g.written.adjusted.entries.map fun s => (s.key.name, s.toValue.json)))] := by
  have hkeys : ((g.written.adjusted.entries.map fun s => (s.key.name, s.toValue.json)).map
      Prod.fst).Nodup := by
    have hnames := List.Nodup.map (fun _ _ h => Key.name_injective h) g.written.adjusted.distinct
    rw [List.map_map] at hnames ⊢
    exact hnames
  rw [json_content, Json.ofEntries_eq hkeys, Json.ofEntries_eq]
  simp

theorem expressions_eq {g h : Graph}
    (hsource : (g.source.map fun e => e.toValue.json) = h.source.map fun e => e.toValue.json)
    (hcolor : g.settings.defaultColor.map Color.value = h.settings.defaultColor.map Color.value) :
    (State.ofGraph g).expressions = (State.ofGraph h).expressions := by
  apply List.ext_getElem?
  intro i
  have hi : (g.source[i]?).map (fun e => e.toValue.json) =
      (h.source[i]?).map fun e => e.toValue.json := by
    rw [← List.getElem?_map, hsource, List.getElem?_map]
  simp only [State.ofGraph, equations, List.getElem?_mapIdx, List.getElem?_map, Option.map_map]
  generalize g.source[i]? = a at hi ⊢
  generalize h.source[i]? = b at hi ⊢
  cases a with
  | none =>
    cases b with
    | none => rfl
    | some f => cases hi
  | some e =>
    cases b with
    | none => cases hi
    | some f => exact congrArg some (ofEquation_painted_eq (Option.some.inj hi) hcolor _)

/-- Graphs with one canonical text of their content are drawn alike. -/
theorem state_same (g h : Graph) (htext : g.content.canonical = h.content.canonical) :
    (State.ofGraph g).Same (State.ofGraph h) := by
  have hjson := Json.text_injective htext
  rw [json_content_object, json_content_object] at hjson
  have hentries := Json.object.inj hjson
  simp only [List.cons.injEq, Prod.mk.injEq, true_and, and_true, Json.array.injEq,
    Json.object.injEq] at hentries
  obtain ⟨hsource, hsettings⟩ := hentries
  have halike : g.settings.Alike h.settings := Settings.alike_ofOverrides hsettings
  exact {
    width := Setting.same_of_alike_size (halike (.size .width))
    height := Setting.same_of_alike_size (halike (.size .height))
    options := options_eq halike
    left := Setting.same_of_alike_edge (halike (.edge .left))
    right := Setting.same_of_alike_edge (halike (.edge .right))
    bottom := Setting.same_of_alike_edge (halike (.edge .bottom))
    top := Setting.same_of_alike_edge (halike (.edge .top))
    expressions :=
      expressions_eq hsource (Setting.value_eq_of_alike_defaultColor (halike .defaultColor)) }

theorem state_same_integral_edge :
    ∃ g h, build [⟨"y=x", none, none, some (.named .red), none, none⟩]
        ⟨[.edge .left (.int (-5))], by decide⟩ none = .ok g ∧
      build [⟨"y=x", none, none, some (.code "#ff0000"), none, none⟩]
        ⟨[.edge .left (.float (.ofInt (-5)))], by decide⟩ none = .ok h ∧
      g.content.canonical = h.content.canonical ∧ (State.ofGraph g).Same (State.ofGraph h) := by
  obtain ⟨g, hg⟩ := exists_ok (x := build [⟨"y=x", none, none, some (.named .red), none, none⟩]
    ⟨[.edge .left (.int (-5))], by decide⟩ none) (by decide +kernel)
  obtain ⟨h, hh⟩ := exists_ok (x := build [⟨"y=x", none, none, some (.code "#ff0000"), none, none⟩]
    ⟨[.edge .left (.float (.ofInt (-5)))], by decide⟩ none) (by decide +kernel)
  obtain ⟨gsource, gwritten, -⟩ := build_eq_ok_iff.mp hg
  obtain ⟨hsource, hwritten, -⟩ := build_eq_ok_iff.mp hh
  have htext : g.content.canonical = h.content.canonical := by
    simp only [content, gsource, gwritten, hsource, hwritten]
    decide +kernel
  exact ⟨g, h, hg, hh, htext, state_same g h htext⟩

end Graph

end GraphBlock
