import GraphBlock.Plugin
import GraphBlock.Proofs.Accepted

/-!
Migration of a stored record. Settings that were saved are loaded again as they were, but for the
stamp of the version, so a chain of versions leads where loading for the last one leads.
-/

namespace GraphBlock

theorem CacheLocation.ofValue?_value (location : CacheLocation) :
    ofValue? (.text (Vocabulary.value location)) = some location := by
  cases location <;> rfl

namespace CacheSettings

theorem lookup?_directory (c : CacheSettings) :
    (Value.lookup? (.text "directory") c.toRecord).getD default.directory = c.directory := by
  obtain ⟨enabled, location, directory⟩ := c
  cases directory <;> rfl

theorem ofRecord_toRecord (c : CacheSettings) : ofRecord c.toRecord = .ok c := by
  have henabled : Value.lookup? (.text "enabled") c.toRecord = some (.bool c.enabled) := rfl
  have hlocation : Value.lookup? (.text "location") c.toRecord =
      some (.text (Vocabulary.value c.location)) := rfl
  rw [ofRecord, henabled, hlocation, lookup?_directory]
  simp only [Option.getD_some, CacheLocation.ofValue?_value]
  rfl

/-- A saved cache entry is never empty, so it is read as the record that it is. -/
theorem ofEntry_toRecord (c : CacheSettings) : ofEntry (some (.record c.toRecord)) = .ok c := by
  have hflag : (Value.record c.toRecord).asFlag = true := rfl
  simp only [ofEntry, hflag, if_true]
  exact ofRecord_toRecord c

end CacheSettings

namespace PluginSettings

variable {record version : Value} {p : PluginSettings}

def stamped (p : PluginSettings) (version : Value) : PluginSettings := { p with version := version }

theorem load_toRecord (p : PluginSettings) (version : Value) :
    load (.record p.toRecord) version = .ok (p.stamped version) := by
  have hcache : Value.lookup? (.text "cache") p.toRecord = some (.record p.cache.toRecord) := rfl
  rw [load, hcache, CacheSettings.ofEntry_toRecord]
  rfl

theorem load_stamped (h : load record version = .ok p) (other : Value) :
    load record other = .ok (p.stamped other) := by
  rw [load.eq_def] at h ⊢
  split at h
  · cases h
    rfl
  · obtain ⟨cache, hcache, hp⟩ := map_eq_ok_iff.mp h
    rw [hcache, ← hp]
    rfl
  · cases h

/-- A saved record goes through every chain of versions, and each round changes the stamp alone. -/
theorem loadThrough_toRecord (p : PluginSettings) (versions : List Value) :
    ∃ run, loadThrough (.record p.toRecord) versions = .ok run ∧
      run.map (·.1) = versions.map p.stamped := by
  induction versions generalizing p with
  | nil => exact ⟨[], rfl, rfl⟩
  | cons version versions ih =>
    obtain ⟨run, hrun, hsettings⟩ := ih (p.stamped version)
    refine ⟨(p.stamped version, migrationNote? (.record p.toRecord) version) :: run, ?_, ?_⟩
    · rw [loadThrough, load_toRecord]
      simp only [bind, Except.bind, hrun]
      rfl
    · rw [List.map_cons, hsettings, List.map_cons]
      rfl

/-- A record that is loaded for the first version is loaded through all of them, and the settings
at the end are those that it is loaded as for the last version; saved settings are loaded as they
were. -/
theorem loadThrough_direct (record version : Value) (versions : List Value) (p : PluginSettings)
    (h : load record version = .ok p) :
    (∃ run last, loadThrough record (version :: versions) = .ok run ∧
      run.length = versions.length + 1 ∧ run.getLast?.map (·.1) = some last ∧
      load record ((version :: versions).getLast (List.cons_ne_nil _ _)) = .ok last ∧
      last = p.stamped ((version :: versions).getLast (List.cons_ne_nil _ _))) ∧
    ∀ q : PluginSettings, load (.record q.toRecord) q.version = .ok q := by
  refine ⟨?_, fun q => load_toRecord q q.version⟩
  obtain ⟨run, hrun, hsettings⟩ := loadThrough_toRecord p versions
  have hversion : p = p.stamped version := by
    have hself := load_stamped h version
    rw [h] at hself
    exact Except.ok.inj hself
  have hall : ((p, migrationNote? record version) :: run).map (·.1) =
      (version :: versions).map p.stamped := by
    rw [List.map_cons, List.map_cons, hsettings, ← hversion]
  refine ⟨(p, migrationNote? record version) :: run, _, ?_, ?_, ?_, load_stamped h _, rfl⟩
  · rw [loadThrough, h]
    simp only [bind, Except.bind, hrun]
    rfl
  · have hlength := congrArg List.length hall
    simpa using hlength
  · rw [← List.getLast?_map, hall, List.getLast?_map,
      List.getLast?_eq_getLast_of_ne_nil (List.cons_ne_nil _ _), Option.map_some]

theorem loadThrough_direct_odd :
    ∃ run last, loadThrough
        (.record [(.text "use_legacy_desmos_api", .list [.int 0]), (.text "cache", .record
          [(.text "enabled", .null), (.text "location", .member (.cache .filesystem)),
            (.text "directory", .tuple [.int 7, .null])])])
        [.text "0.6.0", .null, .int 2] = .ok run ∧
      run.getLast?.map (·.1) = some last ∧
      last = ⟨.int 2, true, ⟨false, .filesystem, .tuple [.int 7, .null]⟩⟩ := by
  obtain ⟨⟨run, last, hrun, -, hlast, -, heq⟩, -⟩ := loadThrough_direct
    (.record [(.text "use_legacy_desmos_api", .list [.int 0]), (.text "cache", .record
      [(.text "enabled", .null), (.text "location", .member (.cache .filesystem)),
        (.text "directory", .tuple [.int 7, .null])])])
    (.text "0.6.0") [.null, .int 2]
    ⟨.text "0.6.0", true, ⟨false, .filesystem, .tuple [.int 7, .null]⟩⟩ rfl
  exact ⟨run, last, hrun, hlast, heq⟩

end PluginSettings

end GraphBlock
