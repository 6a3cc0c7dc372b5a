import TypeReify.Modules.Loader

/-!
# Settings of a rewrite

Where the marker functions live, and how imports are looked up. Settings are read from JSON:

    \x7b
      "markerModule": \x7b
        "implementation": "node_modules/markers/index.js",
        "declaration": "node_modules/markers/index.d.ts"
      \x7d,
      "resolution": \x7b "extensions": [".js"], "indexNames": ["index"] \x7d
    \x7d

The second field, and each of its own fields, may be left out. Every record may also be written as
the array of its fields. Read from a file, relative paths are taken from the file's directory.

Model of `TransformerConfig` (`from_json_str`, `load`), `MarkerModule` (`from_package_dir`,
`canonicalized`, `resolve_against`, `canonicalize_or_keep`) and `ResolutionOptions` with its
defaults.
-/

namespace TypeReify

open Modules (LoaderOptions)

/-- Where the marker functions live. -/
structure MarkerModule where
  /-- The file that imports of the markers load when the program runs. -/
  implementation : String
  /-- The file that declares the markers. -/
  declaration : String
  deriving DecidableEq, Repr

namespace MarkerModule

/-- The module of a package directory. -/
def ofDirectory (directory : String) : MarkerModule :=
  ⟨Path.join directory "index.js", Path.join directory "index.d.ts"⟩

/-- Changes both paths. -/
def map (f : String → String) (m : MarkerModule) : MarkerModule :=
  ⟨f m.implementation, f m.declaration⟩

/-- The module by its canonical paths; a path that leads nowhere is kept. -/
def canonical (disk : Disk) (m : MarkerModule) : MarkerModule :=
  m.map fun path => (disk.canonical? path).getD path

/-- The module with relative paths taken from a directory. -/
def resolvedFrom (directory : String) (m : MarkerModule) : MarkerModule :=
  m.map (Path.join directory)

def ofJson? (j : Json) : Option MarkerModule := do
  match ← j.fields? ["implementation", "declaration"] 2 with
  | [some implementation, some declaration] =>
    return ⟨← implementation.text?, ← declaration.text?⟩
  | _ => none

end MarkerModule

/-- A list of texts, or a default where the field is left out. -/
def textsOr (fallback : List String) : Option Json → Option (List String)
  | none => some fallback
  | some j => j.list? Json.text?

def Modules.LoaderOptions.ofJson? (j : Json) : Option LoaderOptions := do
  match ← j.fields? ["extensions", "indexNames"] 0 with
  | [extensions, indexNames] =>
    return ⟨← textsOr LoaderOptions.default.extensions extensions,
      ← textsOr LoaderOptions.default.indexNames indexNames⟩
  | _ => none

/-- The fields of a `TransformerConfig`. -/
structure Settings where
  marker : MarkerModule
  loader : LoaderOptions
  deriving DecidableEq, Repr

/-- Why settings cannot be had. -/
inductive SettingsError
  /-- The text does not describe settings. -/
  | invalid
  /-- The file has no text. -/
  | unreadable (path : String)
  /-- The text of the file does not describe settings. -/
  | invalidFile (path : String)
  deriving DecidableEq, Repr

namespace SettingsError

def invalidText : String := "invalid transformer config"

def message : SettingsError → String
  | .invalid => invalidText
  | .unreadable path => "failed to read transformer config " ++ path
  | .invalidFile path => "failed to load transformer config " ++ path ++ ": " ++ invalidText

end SettingsError

namespace Settings

def ofJson? (j : Json) : Option Settings := do
  match ← j.fields? ["markerModule", "resolution"] 1 with
  | [some marker, loader] =>
    let loader ←
      match loader with
      | some j => LoaderOptions.ofJson? j
      | none => some .default
    return ⟨← MarkerModule.ofJson? marker, loader⟩
  | _ => none

/-- `from_json_str`. -/
def ofText (s : String) : Except SettingsError Settings :=
  match (Json.ofText? s).bind ofJson? with
  | some settings => .ok settings
  | none => .error .invalid

/-- `load`: reads the file, and takes relative paths from its directory. -/
def ofFile (disk : Disk) (path : String) : Except SettingsError Settings :=
  match disk.readText? path with
  | none => .error (.unreadable path)
  | some text =>
    match ofText text with
    | .ok settings =>
      .ok { settings with marker := settings.marker.resolvedFrom (Path.directory path) }
    | .error _ => .error (.invalidFile path)

end Settings

namespace MarkerModule

end MarkerModule

end TypeReify
