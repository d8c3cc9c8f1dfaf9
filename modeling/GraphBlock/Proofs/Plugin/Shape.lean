import GraphBlock.Proofs.Plugin.Migration

/-!
Which stored records are loaded. The shape of a record alone decides: first whether a value without
entries stands where entries are looked up, then whether the location is one of the known ones. Of
all keys only those that are read matter.
-/

namespace GraphBlock

namespace Value

variable {k v w : Value} {s : Text}

theorem equal_iff_of_text? (h : v.text? = some s) : v.equal w = true ↔ w.text? = some s := by
  have hatoms : v.equal w = equalAtoms v w := by
    apply equal.eq_5
    · rintro rfl
      cases h
    · rintro xs ys rfl
      cases h
    · rintro xs ys rfl
      cases h
    · rintro xs ys rfl
      cases h
  have hnumber : v.number? = none := by
    cases v with
    | text t => rfl
    | member m => rfl
    | _ => cases h
  rw [hatoms, equalAtoms, hnumber, h]
  cases w with
  | text t => exact beq_iff_eq.trans (by rw [text?, Option.some.injEq, eq_comm])
  | member m => exact beq_iff_eq.trans (by rw [text?, Option.some.injEq, eq_comm])
  | _ => simp [number?, text?]

theorem lookup?_putEntry_of_ne (hk : (text s).equal k = false) (v : Value)
    (entries : List (Value × Value)) :
    lookup? (text s) (putEntry k v entries) = lookup? (text s) entries := by
  induction entries with
  | nil => simp [putEntry, lookup?, hk]
  | cons e entries ih =>
    rw [putEntry]
    split
    · next he =>
      have hs : (text s).equal e.1 = false := by
        rw [Bool.eq_false_iff] at hk ⊢
        intro hs
        have htext : e.1.text? = some s := (equal_iff_of_text? rfl).mp hs
        exact hk ((equal_iff_of_text? rfl).mpr ((equal_iff_of_text? htext).mp he))
      simp [lookup?, hs]
    · rw [lookup?] at ih ⊢
      cases hs : (text s).equal e.1 with
      | true => simp [lookup?, hs]
      | false => simpa [lookup?, hs] using ih

end Value

open Value

def CacheLocation.GivenBy (location : CacheLocation) (v : Value) : Prop :=
  v = .text (Vocabulary.value location) ∨ v = .member (.cache location)

theorem CacheLocation.ofValue?_eq_some_iff {v : Value} {location : CacheLocation} :
    ofValue? v = some location ↔ location.GivenBy v := by
  have hfind : ∀ t : Text, (Vocabulary.members.find? fun l : CacheLocation =>
      Vocabulary.value l == t) = some location ↔ t = Vocabulary.value location := by
    intro t
    constructor
    · intro h
      have hvalue := List.find?_some h
      exact (beq_iff_eq.mp hvalue).symm
    · rintro rfl
      cases location <;> rfl
  rw [GivenBy, ofValue?.eq_def]
  split
  · simp [eq_comm]
  · simp [hfind]
  · next hmember htext =>
    refine iff_of_false (Option.some_ne_none _).symm ?_
    rintro (rfl | rfl)
    · exact htext _ rfl
    · exact hmember _ rfl

namespace CacheSettings

variable {entries other : List (Value × Value)} {v : Value} {c : CacheSettings} {e : PluginError}

structure Misplaced (entries : List (Value × Value)) (v : Value) : Prop where
  lookup : lookup? (.text "location") entries = some v
  not_given : ∀ location : CacheLocation, ¬ location.GivenBy v

/-- Settings that are filled from the entries of a cache: each from its entry, or its default where
there is none. -/
structure FilledFrom (entries : List (Value × Value)) (c : CacheSettings) : Prop where
  enabled : c.enabled = (lookup? (.text "enabled") entries).elim true Value.asFlag
  location : (lookup? (.text "location") entries).elim (c.location = .memory) c.location.GivenBy
  directory : c.directory = (lookup? (.text "directory") entries).elim .null id

/-- Caches that say the same of every key that is read. -/
structure Agree (entries other : List (Value × Value)) : Prop where
  enabled : lookup? (.text "enabled") entries = lookup? (.text "enabled") other
  location : lookup? (.text "location") entries = lookup? (.text "location") other
  directory : lookup? (.text "directory") entries = lookup? (.text "directory") other

theorem ofRecord_congr (h : Agree entries other) : ofRecord entries = ofRecord other := by
  rw [ofRecord, ofRecord, h.enabled, h.location, h.directory]

theorem ofValue?_getD_iff {location : CacheLocation} :
    CacheLocation.ofValue? ((lookup? (.text "location") entries).getD
      (.text (Vocabulary.value default.location))) = some location ↔
    (lookup? (.text "location") entries).elim (location = .memory) location.GivenBy := by
  cases lookup? (.text "location") entries with
  | none =>
    have hdefault : CacheLocation.ofValue? (.text (Vocabulary.value default.location)) =
      some .memory := rfl
    rw [Option.getD_none, hdefault, Option.some.injEq, Option.elim_none, eq_comm]
  | some v => exact CacheLocation.ofValue?_eq_some_iff

theorem ofRecord_eq_error_iff :
    ofRecord entries = .error e ↔ ∃ v, e = .unknownLocation v ∧ Misplaced entries v := by
  rw [ofRecord]
  cases hread : CacheLocation.ofValue? ((lookup? (.text "location") entries).getD
      (.text (Vocabulary.value default.location))) with
  | some location =>
    refine iff_of_false (by simp) ?_
    rintro ⟨v, -, hv⟩
    have hgiven := ofValue?_getD_iff.mp hread
    rw [hv.lookup] at hgiven
    exact hv.not_given location hgiven
  | none =>
    cases hlookup : lookup? (.text "location") entries with
    | none =>
      rw [hlookup] at hread
      cases hread
    | some v =>
      rw [hlookup, Option.getD_some] at hread
      have hmisplaced : Misplaced entries v := by
        refine ⟨hlookup, fun location hgiven => ?_⟩
        rw [CacheLocation.ofValue?_eq_some_iff.mpr hgiven] at hread
        cases hread
      constructor
      · intro h
        exact ⟨v, (Except.error.inj h).symm, hmisplaced⟩
      · rintro ⟨w, rfl, hw⟩
        have hsame : w = v := Option.some.inj (hw.lookup.symm.trans hlookup)
        rw [hsame]
        rfl

theorem ofRecord_eq_ok_iff : ofRecord entries = .ok c ↔ FilledFrom entries c := by
  have henabled : ((lookup? (.text "enabled") entries).map Value.asFlag).getD default.enabled =
      (lookup? (.text "enabled") entries).elim true Value.asFlag := by
    cases lookup? (.text "enabled") entries <;> rfl
  have hdirectory : (lookup? (.text "directory") entries).getD default.directory =
      (lookup? (.text "directory") entries).elim .null id := by
    cases lookup? (.text "directory") entries <;> rfl
  rw [ofRecord, henabled, hdirectory]
  constructor
  · intro h
    split at h
    · cases h
    · next location hread =>
      cases h
      exact ⟨rfl, ofValue?_getD_iff.mp hread, rfl⟩
  · intro h
    obtain ⟨enabled, location, directory⟩ := c
    simp only [ofValue?_getD_iff.mpr h.location]
    rw [← h.enabled, ← h.directory]

end CacheSettings

namespace PluginSettings

open CacheSettings

variable {record other version v : Value} {es fs : List (Value × Value)} {p : PluginSettings}

def entriesOf : Value → List (Value × Value)
  | .record es => es
  | _ => []

def cacheOf (record : Value) : List (Value × Value) :=
  ((lookup? (.text "cache") (entriesOf record)).map entriesOf).getD []

/-- A value without entries stands where entries are looked up: it is stored itself, or it is a
cache that counts as true. -/
inductive Formless : (record v : Value) → Prop
  | stored {v : Value} (hnull : v ≠ .null) (hrecord : ∀ es, v ≠ .record es) : Formless v v
  | cache {es : List (Value × Value)} {v : Value} (hv : lookup? (.text "cache") es = some v)
      (hflag : v.asFlag = true) (hrecord : ∀ c, v ≠ .record c) : Formless (.record es) v

/-- Settings that are filled from a stored value, for a version. -/
structure FilledFrom (record version : Value) (p : PluginSettings) : Prop where
  version : p.version = version
  legacyApi : p.legacyApi =
    (lookup? (.text "use_legacy_desmos_api") (entriesOf record)).elim false Value.asFlag
  cache : p.cache.FilledFrom (cacheOf record)

inductive Agree : (record other : Value) → Prop
  | same (record : Value) : Agree record record
  | entries {es fs : List (Value × Value)}
      (legacyApi : lookup? (.text "use_legacy_desmos_api") es =
        lookup? (.text "use_legacy_desmos_api") fs)
      (cache : lookup? (.text "cache") es = lookup? (.text "cache") fs) :
      Agree (.record es) (.record fs)
  | caches {es fs c d : List (Value × Value)}
      (legacyApi : lookup? (.text "use_legacy_desmos_api") es =
        lookup? (.text "use_legacy_desmos_api") fs)
      (hc : lookup? (.text "cache") es = some (.record c))
      (hd : lookup? (.text "cache") fs = some (.record d)) (h : CacheSettings.Agree c d) :
      Agree (.record es) (.record fs)

theorem ofEntry_record (c : List (Value × Value)) : ofEntry (some (.record c)) = ofRecord c := by
  cases c <;> rfl

theorem load_null (version : Value) : load .null version =
    (ofRecord (cacheOf .null)).map fun cache => ⟨version, false, cache⟩ := rfl

theorem load_record (h : ∀ v, ¬ Formless (.record es) v) (version : Value) :
    load (.record es) version = (ofRecord (cacheOf (.record es))).map fun cache =>
      ⟨version, (lookup? (.text "use_legacy_desmos_api") es).elim false Value.asFlag, cache⟩ := by
  have hlegacy : ((lookup? (.text "use_legacy_desmos_api") es).map Value.asFlag).getD
      (default version).legacyApi =
      (lookup? (.text "use_legacy_desmos_api") es).elim false Value.asFlag := by
    cases lookup? (.text "use_legacy_desmos_api") es <;> rfl
  have hcache : ofEntry (lookup? (.text "cache") es) = ofRecord (cacheOf (.record es)) := by
    rw [cacheOf, entriesOf]
    cases hlookup : lookup? (.text "cache") es with
    | none => rfl
    | some v =>
      cases hflag : v.asFlag with
      | true =>
        obtain ⟨c, rfl⟩ : ∃ c, v = .record c := by
          by_contra! hrecord
          exact h v (.cache hlookup hflag hrecord)
        exact ofEntry_record c
      | false =>
        cases v with
        | record c => exact ofEntry_record c
        | _ => simp [ofEntry, hflag, entriesOf]
  rw [load, hlegacy, hcache]

theorem load_of_formless (h : Formless record v) (version : Value) :
    load record version = .error (.noEntries v) := by
  cases h with
  | stored hnull hrecord => exact load.eq_3 _ _ hnull hrecord
  | @cache es v hv hflag hrecord =>
    have hentry : ofEntry (lookup? (.text "cache") es) = .error (.noEntries v) := by
      rw [hv, ofEntry, if_pos hflag]
      exact hrecord
    rw [load, hentry]
    rfl

theorem load_of_formed (h : ∀ v, ¬ Formless record v) (version : Value) :
    load record version = (ofRecord (cacheOf record)).map fun cache =>
      ⟨version, (lookup? (.text "use_legacy_desmos_api") (entriesOf record)).elim false
        Value.asFlag, cache⟩ := by
  cases record with
  | null => exact load_null version
  | record es => exact load_record h version
  | _ => exact absurd (.stored (by simp) (by simp)) (h _)

theorem load_eq_noEntries_iff :
    load record version = .error (.noEntries v) ↔ Formless record v := by
  constructor
  · intro h
    by_contra hv
    by_cases hformless : ∃ w, Formless record w
    · obtain ⟨w, hw⟩ := hformless
      rw [load_of_formless hw] at h
      cases h
      exact hv hw
    · rw [load_of_formed (not_exists.mp hformless), map_eq_error_iff, ofRecord_eq_error_iff] at h
      obtain ⟨w, heq, -⟩ := h
      cases heq
  · exact fun h => load_of_formless h version

theorem load_eq_unknownLocation_iff : load record version = .error (.unknownLocation v) ↔
    (∀ w, ¬ Formless record w) ∧ Misplaced (cacheOf record) v := by
  by_cases hformless : ∃ w, Formless record w
  · obtain ⟨w, hw⟩ := hformless
    rw [load_of_formless hw]
    exact iff_of_false (by simp) fun h => h.1 w hw
  · have hformed := not_exists.mp hformless
    rw [load_of_formed hformed, map_eq_error_iff, ofRecord_eq_error_iff]
    constructor
    · rintro ⟨w, heq, hw⟩
      cases heq
      exact ⟨hformed, hw⟩
    · exact fun h => ⟨v, rfl, h.2⟩

theorem load_eq_ok_iff : load record version = .ok p ↔
    (∀ w, ¬ Formless record w) ∧ FilledFrom record version p := by
  by_cases hformless : ∃ w, Formless record w
  · obtain ⟨w, hw⟩ := hformless
    rw [load_of_formless hw]
    exact iff_of_false (by simp) fun h => h.1 w hw
  · have hformed := not_exists.mp hformless
    rw [load_of_formed hformed, map_eq_ok_iff]
    constructor
    · rintro ⟨cache, hcache, rfl⟩
      exact ⟨hformed, rfl, rfl, ofRecord_eq_ok_iff.mp hcache⟩
    · rintro ⟨-, h⟩
      refine ⟨p.cache, ofRecord_eq_ok_iff.mpr h.cache, ?_⟩
      rw [← h.legacyApi, ← h.version]

theorem load_congr (h : Agree record other) (version : Value) :
    load other version = load record version := by
  cases h with
  | same => rfl
  | entries legacyApi cache => rw [load, load, legacyApi, cache]
  | caches legacyApi hc hd h =>
    rw [load, load, legacyApi, hc, hd, ofEntry_record, ofEntry_record, ofRecord_congr h]

theorem load_putEntry (hlegacy : (text "use_legacy_desmos_api").equal v = false)
    (hcache : (text "cache").equal v = false) (stored : Value) (es : List (Value × Value))
    (version : Value) :
    load (.record (putEntry v stored es)) version = load (.record es) version :=
  load_congr (.entries (lookup?_putEntry_of_ne hlegacy stored es).symm
    (lookup?_putEntry_of_ne hcache stored es).symm) version

theorem load_version (record version other : Value) :
    load record other = (load record version).map (·.stamped other) := by
  cases hload : load record version with
  | ok p => exact load_stamped hload other
  | error e =>
    cases e with
    | noEntries v => exact load_eq_noEntries_iff.mpr (load_eq_noEntries_iff.mp hload)
    | unknownLocation v =>
      exact load_eq_unknownLocation_iff.mpr (load_eq_unknownLocation_iff.mp hload)

/-- A stored value is loaded unless it has no entries where they are looked up, or its cache has a
location that is none. The value that is wrong is reported, and settings are filled from the entries
and the defaults. Other keys make no difference, nor does the version, stored or asked for, but for
the stamp. -/
theorem load_by_shape (record version : Value) :
    (∀ v, load record version = .error (.noEntries v) ↔ Formless record v) ∧
    (∀ v, load record version = .error (.unknownLocation v) ↔
      (∀ w, ¬ Formless record w) ∧ Misplaced (cacheOf record) v) ∧
    ((∀ w, ¬ Formless record w) → (∀ w, ¬ Misplaced (cacheOf record) w) →
      ∃ p, load record version = .ok p) ∧
    (∀ p, load record version = .ok p ↔
      (∀ w, ¬ Formless record w) ∧ FilledFrom record version p) ∧
    (∀ other, Agree record other → load other version = load record version) ∧
    (∀ other, load record other = (load record version).map (·.stamped other)) ∧
    ∀ es stored, load (.record (putEntry (.text "version") stored es)) version =
      load (.record es) version := by
  refine ⟨fun v => load_eq_noEntries_iff, fun v => load_eq_unknownLocation_iff, ?_,
    fun p => load_eq_ok_iff, fun other h => load_congr h version, load_version record version,
    fun es stored => load_putEntry rfl rfl stored es version⟩
  intro hformed hplaced
  cases hload : load record version with
  | ok p => exact ⟨p, rfl⟩
  | error e =>
    cases e with
    | noEntries v => exact absurd (load_eq_noEntries_iff.mp hload) (hformed v)
    | unknownLocation v => exact absurd (load_eq_unknownLocation_iff.mp hload).2 (hplaced v)

theorem load_by_shape_odd :
    (∃ p, load (.record [(.text "use_legacy_desmos_api", .text "false"),
        (.text "cache", .tuple [])]) (.int 2) = .ok p ∧ p.legacyApi = true ∧
      p.cache.location = .memory) ∧
    load (.record [(.text "cache", .record [(.text "location", .text "memory")])]) .null =
      .error (.unknownLocation (.text "memory")) := by
  constructor
  · obtain ⟨-, -, hloads, hfilled, -⟩ := load_by_shape
      (.record [(.text "use_legacy_desmos_api", .text "false"), (.text "cache", .tuple [])])
      (.int 2)
    obtain ⟨p, hp⟩ := hloads
      (by
        rintro w (⟨-, hrecord⟩ | ⟨hv, hflag, -⟩)
        · exact hrecord _ rfl
        · cases hv
          cases hflag)
      (by
        rintro w ⟨hlookup, -⟩
        cases hlookup)
    obtain ⟨-, -, hlegacy, hcache⟩ := (hfilled p).mp hp
    exact ⟨p, hp, hlegacy, hcache.location⟩
  · obtain ⟨-, hlocation, -⟩ := load_by_shape
      (.record [(.text "cache", .record [(.text "location", .text "memory")])]) .null
    refine (hlocation (.text "memory")).mpr ⟨?_, rfl, ?_⟩
    · rintro w (⟨-, hrecord⟩ | ⟨hv, -, hrecord⟩)
      · exact hrecord _ rfl
      · cases hv
        exact hrecord _ rfl
    · intro location
      cases location <;> simp [CacheLocation.GivenBy, Vocabulary.value]

end PluginSettings

end GraphBlock
