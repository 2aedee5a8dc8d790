import BodyLength.Config.Json
import BodyLength.Config.Settings
/-!
# Finding configurations

A project has its configuration in a file of a fixed name at its root. A project without
one uses the defaults.
-/

namespace BodyLength

namespace Config

/-- The file names that are looked for, in this order. -/
def fileNames : List FileName := [bytes ".funclinesrc.json", bytes "funclines.config.json"]

/-- Reads and checks a configuration file. -/
def load (d : Disk) (path : FilePath) : Except Failure Config :=
  match d.readText path with
  | .error e => .error ⟨[.readConfig path], .file e⟩
  | .ok text =>
    match parse text with
    | .error e => .error ⟨[.parseConfig path], .json e⟩
    | .ok c =>
      match c.validate with
      | .error f => .error (f.within (.checkConfig path))
      | .ok () => .ok c

/-- The configuration file of a project and its path. -/
def discover (d : Disk) (projectRoot : FilePath) : Except Failure (Option (Config × FilePath)) :=
  match (fileNames.map (Path.join projectRoot)).find? d.exists? with
  | none => .ok none
  | some path => (load d path).map fun c => some (c, path)

/-- Loads the file `path` if one is given, and otherwise that of the project, if it has one. -/
def loadFor (d : Disk) (projectRoot : FilePath) (path : Option FilePath) :
    Except Failure (Config × Option FilePath) :=
  match path with
  | some path => (load d path).map fun c => (c, some path)
  | none =>
    match discover d projectRoot with
    | .error f => .error f
    | .ok none => .ok ({}, none)
    | .ok (some (c, path)) => .ok (c, some path)

/-- The settings of a project and the warnings that go with them. -/
def settingsFor (d : Disk) (projectRoot : FilePath) (path : Option FilePath) :
    Except Failure (Settings × List LogEvent) := do
  let (c, source) ← loadFor d projectRoot path
  let s ← c.resolve
  return ({ s with source }, c.colorWarnings)

end Config

end BodyLength
