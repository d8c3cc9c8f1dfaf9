import GraphBlock.Proofs.Json.Atom
import GraphBlock.Proofs.Text.Escape
import GraphBlock.Proofs.Text.Trim

/-!
A JSON text determines its tree. Read from the left, every value tells where it ends: an atom at the
next mark, a string at the first quote that is not escaped, an array or an object at its bracket.
-/

namespace GraphBlock.Json

def escapes : List (Char × Char) :=
  [('n', '\n'), ('r', '\r'), ('t', '\t'), ('b', '\x08'), ('f', '\x0c')]

def unescape : Text → Char × Text
  | '\\' :: c :: t =>
    if c = 'u' then
      (Char.ofNat (((List.range 0x20).find? (Text.hex 4 · = t.take 4)).getD 0), t.drop 4)
    else ((escapes.lookup c).getD c, t)
  | c :: t => (c, t)
  | [] => (' ', [])

theorem hex_injective_below : ∀ n < 0x20,
    (List.range 0x20).find? (Text.hex 4 · = Text.hex 4 n) = some n := by decide

theorem unescape_escapedChar (c : Char) (t : Text) : unescape (escapedChar c ++ t) = (c, t) := by
  rw [escapedChar]
  split_ifs with hquote hn hr ht hb hf hcontrol
  · rcases hquote with h | h <;> (rw [h]; rfl)
  · rw [hn]; rfl
  · rw [hr]; rfl
  · rw [ht]; rfl
  · rw [hb]; rfl
  · rw [hf]; rfl
  · have hcode : unescape ("\\u".toList ++ Text.hex 4 c.toNat ++ t) =
        (Char.ofNat (((List.range 0x20).find?
          (Text.hex 4 · = (Text.hex 4 c.toNat ++ t).take 4)).getD 0),
          (Text.hex 4 c.toNat ++ t).drop 4) := rfl
    have htake : (Text.hex 4 c.toNat ++ t).take 4 = Text.hex 4 c.toNat := List.take_left' rfl
    have hdrop : (Text.hex 4 c.toNat ++ t).drop 4 = t := List.drop_left' rfl
    rw [hcode, htake, hdrop, hex_injective_below c.toNat hcontrol, Option.getD_some,
      Char.ofNat_toNat]
  · rw [List.singleton_append, unescape.eq_2 c t]
    intro d u hc
    exact absurd hc (not_or.mp hquote).2

theorem quote_ne_escapedChar (c : Char) (r t : Text) : '"' :: r ≠ escapedChar c ++ t := by
  intro h
  rw [escapedChar] at h
  split_ifs at h with hquote hn hr ht hb hf hcontrol
  all_goals injection h with hhead
  on_goal 8 => exact hquote (.inl hhead.symm)
  all_goals cases hhead

theorem quoted_inj {t u r s : Text} (h : quoted t ++ r = quoted u ++ s) : t = u ∧ r = s := by
  have hquoted : ∀ t r : Text, quoted t ++ r = '"' :: (t.flatMap escapedChar ++ '"' :: r) := by
    intro t r
    simp [quoted]
  rw [hquoted, hquoted] at h
  obtain ⟨htu, hrs⟩ := Text.flatMap_append_inj unescape_escapedChar
    (fun c v => quote_ne_escapedChar c r v) (fun c v => quote_ne_escapedChar c s v)
    (List.cons.inj h).2
  exact ⟨htu, (List.cons.inj hrs).2⟩

/-- What may follow a value: nothing, or a mark. -/
def Stops (t : Text) : Prop := ∀ c ∈ t.head?, c ∈ marks

theorem stops_cons {c : Char} (hc : c ∈ marks) (t : Text) : Stops (c :: t) := by
  intro d hd
  cases hd
  exact hc

theorem run_inj {a b r s : Text} (ha : ∀ c ∈ a, c ∉ marks) (hb : ∀ c ∈ b, c ∉ marks)
    (hr : Stops r) (hs : Stops s) (h : a ++ r = b ++ s) : a = b ∧ r = s := by
  have hrun : ∀ {a : Text}, (∀ c ∈ a, c ∉ marks) → ∀ c ∈ a, decide (c ∉ marks) = true :=
    fun ha c hc => decide_eq_true (ha c hc)
  have hstop : ∀ {r : Text}, Stops r → ∀ c ∈ r.head?, decide (c ∉ marks) = false :=
    fun hr c hc => decide_eq_false (not_not_intro (hr c hc))
  have htake := congrArg (List.takeWhile fun c => decide (c ∉ marks)) h
  have hdrop := congrArg (List.dropWhile fun c => decide (c ∉ marks)) h
  rw [Text.takeWhile_run (hrun ha) (hstop hr), Text.takeWhile_run (hrun hb) (hstop hs)] at htake
  rw [Text.dropWhile_run (hrun ha) (hstop hr), Text.dropWhile_run (hrun hb) (hstop hs)] at hdrop
  exact ⟨htake, hdrop⟩

inductive Shape
  | atom
  | string
  | array
  | object
  deriving DecidableEq, Repr

def shape : Json → Shape
  | string _ => .string
  | array _ => .array
  | object _ => .object
  | _ => .atom

def Shape.ofChar (c : Char) : Shape :=
  if c = '"' then .string else if c = '[' then .array else if c = '{' then .object else .atom

theorem isAtom_of_shape {a : Json} (h : a.shape = .atom) : a.IsAtom := by
  cases a with
  | null => exact .null
  | bool b => exact .bool b
  | int n => exact .int n
  | float x => exact .float x
  | string t => cases h
  | array items => cases h
  | object entries => cases h

theorem exists_string {a : Json} (h : a.shape = .string) : ∃ t, a = string t := by
  cases a with
  | string t => exact ⟨t, rfl⟩
  | _ => cases h

theorem exists_array {a : Json} (h : a.shape = .array) : ∃ items, a = array items := by
  cases a with
  | array items => exact ⟨items, rfl⟩
  | _ => cases h

theorem exists_object {a : Json} (h : a.shape = .object) : ∃ entries, a = object entries := by
  cases a with
  | object entries => exact ⟨entries, rfl⟩
  | _ => cases h

/-- The first character of a value tells its shape and is not the end of another one. -/
theorem exists_head (a : Json) :
    ∃ c t, a.text = c :: t ∧ Shape.ofChar c = a.shape ∧ c ≠ ']' ∧ c ≠ '}' := by
  by_cases hatom : a.shape = .atom
  · obtain ⟨hne, hmarks⟩ := text_of_isAtom (isAtom_of_shape hatom)
    obtain ⟨c, t, hcons⟩ := List.exists_cons_of_ne_nil hne
    have hc := hmarks c (by rw [hcons]; exact List.mem_cons_self)
    simp only [marks, List.mem_cons, List.not_mem_nil, or_false, not_or] at hc
    refine ⟨c, t, hcons, ?_, hc.2.2.2.2.1, hc.2.2.2.2.2⟩
    rw [hatom, Shape.ofChar, if_neg hc.1, if_neg hc.2.1, if_neg hc.2.2.1]
  · cases a with
    | null => exact absurd rfl hatom
    | bool b => exact absurd rfl hatom
    | int n => exact absurd rfl hatom
    | float x => exact absurd rfl hatom
    | string t => exact ⟨'"', _, rfl, rfl, by decide, by decide⟩
    | array items => exact ⟨'[', _, rfl, rfl, by decide, by decide⟩
    | object entries => exact ⟨'{', _, rfl, rfl, by decide, by decide⟩

theorem shape_eq {a b : Json} {r s : Text} (h : a.text ++ r = b.text ++ s) : a.shape = b.shape := by
  obtain ⟨c, t, ha, hshape, -⟩ := exists_head a
  obtain ⟨d, u, hb, hshape', -⟩ := exists_head b
  rw [ha, hb] at h
  rw [← hshape, ← hshape', (List.cons.inj h).1]

theorem atom_inj {a b : Json} {r s : Text} (ha : a.IsAtom) (hr : Stops r) (hs : Stops s)
    (h : a.text ++ r = b.text ++ s) : a = b ∧ r = s := by
  have hatom : a.shape = .atom := by cases ha <;> rfl
  have hb := isAtom_of_shape ((shape_eq h).symm.trans hatom)
  obtain ⟨htext, hrest⟩ := run_inj (text_of_isAtom ha).2 (text_of_isAtom hb).2 hr hs h
  refine ⟨?_, hrest⟩
  rw [← ofAtom_text ha, htext, ofAtom_text hb]

def itemsTail : List Json → Text
  | [] => []
  | x :: xs => ',' :: itemsText (x :: xs)

theorem itemsText_cons (x : Json) (xs : List Json) :
    itemsText (x :: xs) = x.text ++ itemsTail xs := by
  cases xs with
  | nil => rw [itemsText, itemsTail, List.append_nil]
  | cons y ys => rw [itemsText, itemsTail]; simp

def entriesTail : List (Text × Json) → Text
  | [] => []
  | e :: es => ',' :: entriesText (e :: es)

theorem entriesText_cons (k : Text) (x : Json) (es : List (Text × Json)) :
    entriesText ((k, x) :: es) = quoted k ++ ':' :: (x.text ++ entriesTail es) := by
  cases es with
  | nil => rw [entriesText, entriesTail, List.append_nil]
  | cons e es => simp [entriesText, entriesTail]

theorem stops_itemsTail (xs : List Json) (r : Text) : Stops (itemsTail xs ++ ']' :: r) := by
  cases xs with
  | nil => exact stops_cons (by decide) _
  | cons x xs => exact stops_cons (by decide) _

theorem stops_entriesTail (es : List (Text × Json)) (r : Text) :
    Stops (entriesTail es ++ '}' :: r) := by
  cases es with
  | nil => exact stops_cons (by decide) _
  | cons e es => exact stops_cons (by decide) _

theorem itemsTail_inj {xs ys : List Json} {r s : Text}
    (hitems : itemsText xs ++ ']' :: r = itemsText ys ++ ']' :: s → xs = ys ∧ r = s)
    (h : itemsTail xs ++ ']' :: r = itemsTail ys ++ ']' :: s) : xs = ys ∧ r = s := by
  cases xs with
  | nil =>
    cases ys with
    | nil => exact hitems h
    | cons y ys => cases h
  | cons x xs =>
    cases ys with
    | nil => cases h
    | cons y ys => exact hitems (List.cons.inj h).2

theorem entriesTail_inj {es fs : List (Text × Json)} {r s : Text}
    (hentries : entriesText es ++ '}' :: r = entriesText fs ++ '}' :: s → es = fs ∧ r = s)
    (h : entriesTail es ++ '}' :: r = entriesTail fs ++ '}' :: s) : es = fs ∧ r = s := by
  cases es with
  | nil =>
    cases fs with
    | nil => exact hentries h
    | cons f fs => cases h
  | cons e es =>
    cases fs with
    | nil => cases h
    | cons f fs => exact hentries (List.cons.inj h).2

mutual

theorem text_inj (a b : Json) (r s : Text) (hr : Stops r) (hs : Stops s)
    (h : a.text ++ r = b.text ++ s) : a = b ∧ r = s := by
  -- the first character tells the shape, so the other tree is of the same one
  match a with
  | null => exact atom_inj .null hr hs h
  | bool x => exact atom_inj (.bool x) hr hs h
  | int n => exact atom_inj (.int n) hr hs h
  | float x => exact atom_inj (.float x) hr hs h
  | string t =>
    obtain ⟨u, hu⟩ := exists_string (shape_eq h).symm
    rw [hu] at h ⊢
    obtain ⟨htu, hrs⟩ := quoted_inj h
    exact ⟨by rw [htu], hrs⟩
  | array xs =>
    obtain ⟨ys, hys⟩ := exists_array (shape_eq h).symm
    rw [hys, text, text] at h
    have hitems : itemsText xs ++ ']' :: r = itemsText ys ++ ']' :: s := by simpa using h
    obtain ⟨hxy, hrs⟩ := itemsText_inj xs ys r s hitems
    exact ⟨by rw [hys, hxy], hrs⟩
  | object es =>
    obtain ⟨fs, hfs⟩ := exists_object (shape_eq h).symm
    rw [hfs, text, text] at h
    have hentries : entriesText es ++ '}' :: r = entriesText fs ++ '}' :: s := by
      simpa using h
    obtain ⟨hef, hrs⟩ := entriesText_inj es fs r s hentries
    exact ⟨by rw [hfs, hef], hrs⟩

theorem itemsText_inj (xs ys : List Json) (r s : Text)
    (h : itemsText xs ++ ']' :: r = itemsText ys ++ ']' :: s) : xs = ys ∧ r = s := by
  match xs, ys with
  | [], [] => exact ⟨rfl, (List.cons.inj h).2⟩
  | [], y :: ys =>
    obtain ⟨c, t, hcons, -, hc, -⟩ := exists_head y
    rw [itemsText_cons, hcons] at h
    exact absurd (List.cons.inj h).1.symm hc
  | x :: xs, [] =>
    obtain ⟨c, t, hcons, -, hc, -⟩ := exists_head x
    rw [itemsText_cons, hcons] at h
    exact absurd (List.cons.inj h).1 hc
  | x :: xs, y :: ys =>
    rw [itemsText_cons, itemsText_cons, List.append_assoc, List.append_assoc] at h
    obtain ⟨hxy, htail⟩ := text_inj x y _ _ (stops_itemsTail xs r) (stops_itemsTail ys s) h
    obtain ⟨hxs, hrs⟩ := itemsTail_inj (itemsText_inj xs ys r s) htail
    exact ⟨by rw [hxy, hxs], hrs⟩

theorem entriesText_inj (es fs : List (Text × Json)) (r s : Text)
    (h : entriesText es ++ '}' :: r = entriesText fs ++ '}' :: s) : es = fs ∧ r = s := by
  match es, fs with
  | [], [] => exact ⟨rfl, (List.cons.inj h).2⟩
  | [], (k, y) :: fs =>
    rw [entriesText_cons] at h
    cases h
  | (k, x) :: es, [] =>
    rw [entriesText_cons] at h
    cases h
  | (k, x) :: es, (l, y) :: fs =>
    rw [entriesText_cons, entriesText_cons, List.append_assoc, List.append_assoc] at h
    obtain ⟨hkl, hvalue⟩ := quoted_inj h
    rw [List.cons_append, List.cons_append, List.append_assoc, List.append_assoc] at hvalue
    have hvalue := (List.cons.inj hvalue).2
    obtain ⟨hxy, htail⟩ := text_inj x y _ _ (stops_entriesTail es r) (stops_entriesTail fs s) hvalue
    obtain ⟨hes, hrs⟩ := entriesTail_inj (entriesText_inj es fs r s) htail
    exact ⟨by rw [hkl, hxy, hes], hrs⟩

end

/-- A text is the text of at most one tree. -/
theorem text_injective {a b : Json} (h : a.text = b.text) : a = b := by
  have hnil : Stops [] := by
    intro c hc
    cases hc
  exact (text_inj a b [] [] hnil hnil (by rw [h])).1

end GraphBlock.Json
