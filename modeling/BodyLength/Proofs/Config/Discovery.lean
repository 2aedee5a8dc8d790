import BodyLength.Config.Discovery
import BodyLength.Proofs.Config.Resolution
import BodyLength.Proofs.Files.Isolation
/-!
# Where settings come from

Settings are made of a configuration that is loaded from a file or, where there is none, of an empty one
(`Config.settingsFor_eq_ok_iff`). So what holds of all settings that a configuration is resolved to holds of
them, wherever they are loaded from.
-/

namespace BodyLength

namespace Config

variable {d : Disk} {root : FilePath}

/-- A file with a valid configuration can be loaded. -/
theorem load_of_file {file : FilePath} {text : String} {c : Config} (hfile : d.find file = .ok (.file (bytes text)))
    (hparse : parse text = .ok c) (hvalid : c.validate = .ok ()) : load d file = .ok c := by
  rw [load, Disk.readText_eq_ok_iff.2 hfile]
  simp only [hparse, hvalid]

theorem loadFor_some (path : FilePath) : loadFor d root (some path) = (load d path).map fun c => (c, some path) := rfl

/-- A project without a configuration has an empty one. -/
theorem loadFor_of_missing (h : ∀ path ∈ fileNames.map (Path.join root), ¬ d.exists? path) :
    loadFor d root none = .ok ({}, none) := by
  -- not by their equations, for which the names looked for would be evaluated
  delta loadFor discover
  simp only [List.find?_eq_none.2 h]

variable {path : Option FilePath} {s : Settings} {notes : List LogEvent}

/-- Settings are those of a configuration, with the place it comes from. -/
theorem settingsFor_eq_ok_iff : settingsFor d root path = .ok (s, notes) ↔ ∃ c source resolved,
    loadFor d root path = .ok (c, source) ∧ c.resolve = .ok resolved ∧ s = { resolved with source } ∧
      notes = c.colorWarnings := by
  constructor
  · intro h
    obtain ⟨⟨c, source⟩, hload, h⟩ := bind_eq_ok h
    obtain ⟨resolved, hresolve, h⟩ := bind_eq_ok h
    cases h
    exact ⟨c, source, resolved, hload, hresolve, rfl, rfl⟩
  · rintro ⟨c, source, resolved, hload, hresolve, rfl, rfl⟩
    simp only [settingsFor, hload, bind, Except.bind, hresolve]
    rfl

/-- Settings keep to limits of at least 1, wherever they are loaded from. -/
theorem limits_of_settingsFor (h : settingsFor d root path = .ok (s, notes)) :
    1 ≤ s.scan.maxLines ∧ s.top ≠ some 0 := by
  obtain ⟨c, source, resolved, -, hresolve, rfl, -⟩ := settingsFor_eq_ok_iff.1 h
  have hlimits := limits_of_resolve hresolve
  exact hlimits

end Config

end BodyLength
