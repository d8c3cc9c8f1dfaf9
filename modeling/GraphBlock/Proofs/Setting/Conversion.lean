import GraphBlock.Proofs.Accepted
import GraphBlock.Proofs.Number.Place
import GraphBlock.Setting.Basic

namespace GraphBlock

theorem Binary64.exists_floor_add_half {x : Binary64} (hx : x.isFinite = true) :
    ∃ n, (x.add .half).floor? = some n := by
  have hsum := isFinite_add_half hx
  cases hvalue : x.add .half with
  | finite negative m hm => exact ⟨_, rfl⟩
  | infinite negative => rw [hvalue] at hsum; cases hsum
  | nan => rw [hvalue] at hsum; cases hsum

theorem Vocabulary.named?_eq_some_iff {α : Type} [Vocabulary α] {token : Text} {m : α}
    (h : (members (α := α)).find? (fun n => name n == name m) = some m) :
    named? token = some m ↔ name m = Text.upper token := by
  constructor
  · exact name_eq_of_named?
  · intro hname
    rw [named?, ← hname]
    exact h

theorem DegreeMode.named?_eq_some_iff {token : Text} {m : DegreeMode} :
    Vocabulary.named? token = some m ↔ Vocabulary.name m = Text.upper token :=
  Vocabulary.named?_eq_some_iff (by cases m <;> decide)

theorem NamedColor.named?_eq_some_iff {token : Text} {c : NamedColor} :
    Vocabulary.named? token = some c ↔ Vocabulary.name c = Text.upper token :=
  Vocabulary.named?_eq_some_iff (by cases c <;> decide)

def Color.Coded (t : Text) : Prop :=
  ∃ body, t = '#' :: body ∧ body ≠ [] ∧ ∀ c ∈ body, c.isAlphanum = true

theorem Color.isCode_eq_true_iff {t : Text} : isCode t = true ↔ Coded t := by
  constructor
  · intro h
    rw [isCode.eq_def] at h
    split at h
    · next body =>
      rw [Bool.and_eq_true, List.all_eq_true] at h
      exact ⟨body, rfl, by simpa using h.1, h.2⟩
    · cases h
  · rintro ⟨body, rfl, hne, halphanum⟩
    rw [isCode, Bool.and_eq_true, List.all_eq_true]
    exact ⟨by simpa using hne, halphanum⟩

theorem Color.Coded.name_ne {t : Text} (h : Coded t) (c : NamedColor) :
    Vocabulary.name c ≠ Text.upper t := by
  obtain ⟨body, rfl, -⟩ := h
  have hupper : Text.upper ('#' :: body) = '#' :: Text.upper body := rfl
  rw [hupper]
  cases c <;> exact fun heq => absurd (List.cons.inj heq).1 (by decide)

namespace Kind

/-- What the text of a directive, or its absence, converts to under a kind. -/
inductive Converts : Kind → Option Text → Value → Prop
  | number {t : Text} {x : Binary64} (ht : Binary64.read? t = some x) (hx : x.isFinite = true) :
      Converts number (some t) (.float x)
  | integer {t : Text} {x : Binary64} {n : Int} (ht : Binary64.read? t = some x)
      (hx : x.isFinite = true) (hn : (x.add .half).floor? = some n) :
      Converts integer (some t) (.int n)
  | bare {value : Option Text} (h : value = none ∨ value = some []) :
      Converts flag value (.bool true)
  | on {t : Text} (h : Text.lower t = "true") : Converts flag (some t) (.bool true)
  | off {t : Text} (h : Text.lower t = "false") : Converts flag (some t) (.bool false)
  | degreeMode {t : Text} {m : DegreeMode} (h : Vocabulary.name m = Text.upper t) :
      Converts degreeMode (some t) (.member (.degree m))
  | named {t : Text} {c : NamedColor} (h : Vocabulary.name c = Text.upper t) :
      Converts color (some t) (.member (.color c))
  | code {t : Text} (h : Color.Coded t) : Converts color (some t) (.text t)

inductive Refuses (field : Text) : Kind → Option Text → GraphError → Prop
  | missing {kind : Kind} {value : Option Text} (hkind : kind ≠ flag)
      (h : value = none ∨ value = some []) : Refuses field kind value (.missingValue field)
  | number {kind : Kind} {t : Text} (hkind : kind = number ∨ kind = integer) (ht : t ≠ [])
      (h : ∀ x, Binary64.read? t = some x → x.isFinite = false) :
      Refuses field kind (some t) (.notNumber field t)
  | flag {t : Text} (ht : t ≠ []) (hon : Text.lower t ≠ "true") (hoff : Text.lower t ≠ "false") :
      Refuses field flag (some t) (.notFlag field)
  | degreeMode {t : Text} (ht : t ≠ []) (h : ∀ m : DegreeMode, Vocabulary.name m ≠ Text.upper t) :
      Refuses field degreeMode (some t) (.notDegreeMode field)
  | color {t : Text} (ht : t ≠ []) (hnamed : ∀ c : NamedColor, Vocabulary.name c ≠ Text.upper t)
      (hcode : ¬ Color.Coded t) : Refuses field color (some t) (.notColor field)

/-- The values of a kind: numbers are finite, a color is a constant or a code. -/
inductive Admits : Kind → Value → Prop
  | number {x : Binary64} (hx : x.isFinite = true) : Admits number (.float x)
  | integer (n : Int) : Admits integer (.int n)
  | flag (on : Bool) : Admits flag (.bool on)
  | degreeMode (m : DegreeMode) : Admits degreeMode (.member (.degree m))
  | constant (c : NamedColor) : Admits color (.member (.color c))
  | code {t : Text} (h : Color.Coded t) : Admits color (.text t)

variable {kind : Kind} {field : Text} {value : Option Text} {v : Value} {e : GraphError}

theorem Converts.admits (h : kind.Converts value v) : kind.Admits v := by
  cases h with
  | number ht hx => exact .number hx
  | integer => exact .integer _
  | bare => exact .flag _
  | on => exact .flag _
  | off => exact .flag _
  | degreeMode => exact .degreeMode _
  | named => exact .constant _
  | code h => exact .code h

theorem required_some {t : Text} (ht : t ≠ []) : required field (some t) = .ok t := by
  cases t with
  | nil => exact absurd rfl ht
  | cons c t => rfl

theorem required_eq_error (h : value = none ∨ value = some []) :
    required field value = .error (.missingValue field) := by
  rcases h with rfl | rfl <;> rfl

theorem readNumber_some {t : Text} {x : Binary64} (ht : Binary64.read? t = some x)
    (hx : x.isFinite = true) : readNumber field (some t) = .ok x := by
  have hne : t ≠ [] := by
    rintro rfl
    cases ht
  rw [readNumber, required_some hne]
  simp only [bind, Except.bind, ht, hx, if_true]

theorem readNumber_eq_error {t : Text} (ht : t ≠ [])
    (h : ∀ x, Binary64.read? t = some x → x.isFinite = false) :
    readNumber field (some t) = .error (.notNumber field t) := by
  rw [readNumber, required_some ht]
  cases hread : Binary64.read? t with
  | none => simp only [bind, Except.bind, hread]
  | some x => simp [bind, Except.bind, hread, h x hread]

theorem readFlag_some {t : Text} (ht : t ≠ []) : readFlag field (some t) =
    if Text.lower t = "true".toList then .ok true
    else if Text.lower t = "false".toList then .ok false
    else .error (.notFlag field) := by
  cases t with
  | nil => exact absurd rfl ht
  | cons c t => rfl

theorem readFlag_on {t : Text} (h : Text.lower t = "true") :
    readFlag field (some t) = .ok true := by
  have hne : t ≠ [] := by
    rintro rfl
    cases h
  rw [readFlag_some hne, if_pos h]

theorem readFlag_off {t : Text} (h : Text.lower t = "false") :
    readFlag field (some t) = .ok false := by
  have hne : t ≠ [] := by
    rintro rfl
    cases h
  rw [readFlag_some hne, if_neg (by rw [h]; decide), if_pos h]

theorem read_of_converts (h : kind.Converts value v) : kind.read field value = .ok v := by
  cases h with
  | number ht hx =>
    rw [read, readNumber_some ht hx]
    rfl
  | integer ht hx hn =>
    rw [read, readInteger, readNumber_some ht hx]
    simp only [bind, Except.bind, hn]
    rfl
  | bare h => rcases h with rfl | rfl <;> rfl
  | on h =>
    rw [read, readFlag_on h]
    rfl
  | off h =>
    rw [read, readFlag_off h]
    rfl
  | @degreeMode t m h =>
    have hne : t ≠ [] := by
      rintro rfl
      cases m <;> cases h
    simp only [read, readDegreeMode, required_some hne, bind, Except.bind,
      DegreeMode.named?_eq_some_iff.mpr h]
    rfl
  | @named t c h =>
    have hne : t ≠ [] := by
      rintro rfl
      cases c <;> cases h
    have hcode : Color.isCode t = false := by
      rw [Bool.eq_false_iff, ne_eq, Color.isCode_eq_true_iff]
      exact fun hcoded => hcoded.name_ne c h
    simp only [read, readColor, required_some hne, bind, Except.bind, Color.parse?, hcode,
      NamedColor.named?_eq_some_iff.mpr h]
    rfl
  | @code t h =>
    have hne : t ≠ [] := by
      obtain ⟨body, rfl, -⟩ := h
      exact List.cons_ne_nil _ _
    simp only [read, readColor, required_some hne, bind, Except.bind, Color.parse?,
      Color.isCode_eq_true_iff.mpr h]
    rfl

theorem read_of_refuses (h : kind.Refuses field value e) : kind.read field value = .error e := by
  cases h with
  | missing hkind h =>
    have hrequired : required field value = .error (.missingValue field) := required_eq_error h
    cases kind with
    | flag => exact absurd rfl hkind
    | number => simp only [read, readNumber, hrequired]; rfl
    | integer => simp only [read, readInteger, readNumber, hrequired]; rfl
    | degreeMode => simp only [read, readDegreeMode, hrequired]; rfl
    | color => simp only [read, readColor, hrequired]; rfl
  | @number _ t hkind ht h =>
    have hnumber : readNumber field (some t) = .error (.notNumber field t) :=
      readNumber_eq_error ht h
    rcases hkind with rfl | rfl
    · simp only [read, hnumber]; rfl
    · simp only [read, readInteger, hnumber]; rfl
  | flag ht hon hoff =>
    rw [read, readFlag_some ht, if_neg hon, if_neg hoff]
    rfl
  | @degreeMode t ht h =>
    have hnamed : (Vocabulary.named? t : Option DegreeMode) = none := by
      rw [Option.eq_none_iff_forall_ne_some]
      exact fun m hm => h m (DegreeMode.named?_eq_some_iff.mp hm)
    simp only [read, readDegreeMode, required_some ht, bind, Except.bind, hnamed]
    rfl
  | @color t ht hnamed hcode =>
    have hnone : (Vocabulary.named? t : Option NamedColor) = none := by
      rw [Option.eq_none_iff_forall_ne_some]
      exact fun c hc => hnamed c (NamedColor.named?_eq_some_iff.mp hc)
    rw [← Color.isCode_eq_true_iff, Bool.not_eq_true] at hcode
    simp only [read, readColor, required_some ht, bind, Except.bind, Color.parse?, hcode, hnone]
    rfl

theorem converts_or_refuses (kind : Kind) (field : Text) (value : Option Text) :
    (∃ v, kind.Converts value v) ∨ ∃ e, kind.Refuses field value e := by
  by_cases habsent : value = none ∨ value = some []
  · by_cases hkind : kind = flag
    · rw [hkind]
      exact .inl ⟨_, .bare habsent⟩
    · exact .inr ⟨_, .missing hkind habsent⟩
  · obtain ⟨t, rfl⟩ := Option.ne_none_iff_exists'.mp fun h => habsent (.inl h)
    have ht : t ≠ [] := fun h => habsent (.inr (congrArg some h))
    have hfinite : (∃ x, Binary64.read? t = some x ∧ x.isFinite = true) ∨
        ∀ x, Binary64.read? t = some x → x.isFinite = false := by
      by_contra! h
      obtain ⟨hall, x, hx, hfinite⟩ := h
      exact hall x hx (by simpa using hfinite)
    cases kind with
    | number =>
      rcases hfinite with ⟨x, hx, hfinite⟩ | hnone
      · exact .inl ⟨_, .number hx hfinite⟩
      · exact .inr ⟨_, .number (.inl rfl) ht hnone⟩
    | integer =>
      rcases hfinite with ⟨x, hx, hfinite⟩ | hnone
      · obtain ⟨n, hn⟩ := Binary64.exists_floor_add_half hfinite
        exact .inl ⟨_, .integer hx hfinite hn⟩
      · exact .inr ⟨_, .number (.inr rfl) ht hnone⟩
    | flag =>
      by_cases hon : Text.lower t = "true"
      · exact .inl ⟨_, .on hon⟩
      · by_cases hoff : Text.lower t = "false"
        · exact .inl ⟨_, .off hoff⟩
        · exact .inr ⟨_, .flag ht hon hoff⟩
    | degreeMode =>
      by_cases h : ∃ m : DegreeMode, Vocabulary.name m = Text.upper t
      · obtain ⟨m, hm⟩ := h
        exact .inl ⟨_, .degreeMode hm⟩
      · exact .inr ⟨_, .degreeMode ht fun m hm => h ⟨m, hm⟩⟩
    | color =>
      by_cases h : ∃ c : NamedColor, Vocabulary.name c = Text.upper t
      · obtain ⟨c, hc⟩ := h
        exact .inl ⟨_, .named hc⟩
      · by_cases hcode : Color.Coded t
        · exact .inl ⟨_, .code hcode⟩
        · exact .inr ⟨_, .color ht (fun c hc => h ⟨c, hc⟩) hcode⟩

theorem read_eq_ok_iff : kind.read field value = .ok v ↔ kind.Converts value v := by
  refine ⟨fun h => ?_, read_of_converts⟩
  rcases converts_or_refuses kind field value with ⟨w, hw⟩ | ⟨e, he⟩
  · rw [read_of_converts hw] at h
    cases h
    exact hw
  · rw [read_of_refuses he] at h
    cases h

theorem read_eq_error_iff : kind.read field value = .error e ↔ kind.Refuses field value e := by
  refine ⟨fun h => ?_, read_of_refuses⟩
  rcases converts_or_refuses kind field value with ⟨w, hw⟩ | ⟨e', he⟩
  · rw [read_of_converts hw] at h
    cases h
  · rw [read_of_refuses he] at h
    cases h
    exact he

theorem isFinite_of_readNumber {x : Binary64} (h : readNumber field value = .ok x) :
    x.isFinite = true := by
  have hread : number.read field value = .ok (.float x) := by
    rw [read, h]
    rfl
  cases (read_eq_ok_iff.mp hread).admits with
  | number hx => exact hx

end Kind

namespace Setting

variable {k : Key} {s : Setting} {value : Option Text} {v : Value} {e : GraphError}

theorem read_eq (k : Key) (value : Option Text) :
    read k value = k.kind.read k.name value >>= ofValue k := by
  cases k with
  | size d => rw [read, Key.kind, Kind.read]; cases Kind.readInteger _ value <;> rfl
  | edge e => rw [read, Key.kind, Kind.read]; cases Kind.readNumber _ value <;> rfl
  | flag f => rw [read, Key.kind, Kind.read]; cases Kind.readFlag _ value <;> rfl
  | degreeMode => rw [read, Key.kind, Kind.read]; cases Kind.readDegreeMode _ value <;> rfl
  | defaultColor =>
    rw [read, Key.kind, Kind.read]
    cases Kind.readColor Key.defaultColor.name value with
    | error e => rfl
    | ok c => cases c <;> rfl

theorem ofValue_eq_ok_iff : ofValue k v = .ok s ↔ s.key = k ∧ s.toValue = v := by
  constructor
  · intro h
    rw [ofValue.eq_def] at h
    split at h <;> cases h <;> exact ⟨rfl, rfl⟩
  · rintro ⟨rfl, rfl⟩
    exact ofValue_toValue s

theorem exists_ofValue (h : k.kind.Admits v) : ∃ s, ofValue k v = .ok s := by
  cases k <;> cases h <;> exact ⟨_, rfl⟩

theorem read_eq_ok_iff : read k value = .ok s ↔ s.key = k ∧ k.kind.Converts value s.toValue := by
  rw [read_eq, bind_eq_ok_iff]
  simp only [ofValue_eq_ok_iff, Kind.read_eq_ok_iff]
  constructor
  · rintro ⟨v, hv, hkey, rfl⟩
    exact ⟨hkey, hv⟩
  · rintro ⟨hkey, hv⟩
    exact ⟨_, hv, hkey, rfl⟩

theorem read_eq_error_iff : read k value = .error e ↔ k.kind.Refuses k.name value e := by
  rw [read_eq, bind_eq_error_iff]
  simp only [Kind.read_eq_ok_iff, Kind.read_eq_error_iff]
  constructor
  · rintro (h | ⟨v, hv, he⟩)
    · exact h
    · obtain ⟨s, hs⟩ := exists_ofValue hv.admits
      rw [hs] at he
      cases he
  · exact .inl

end Setting

end GraphBlock
