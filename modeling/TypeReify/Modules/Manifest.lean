import TypeReify.Json.Read

/-!
# Package manifests

The one field of a `package.json` that a loader looks at: the main file of the package. The field
may be absent, `null` or empty, and then the package has no main file.

Model of `PackageJson` and `read_package_json`.

Results:
* `main_ne_empty`: a main file that is read has a name.
-/

namespace TypeReify.Modules

/-- `PackageJson`. -/
structure Manifest where
  /-- The main file, relative to the package. -/
  main : Option String
  deriving DecidableEq, Repr

namespace Manifest

def ofMain (main : Option String) : Manifest := ⟨main.filter (· != "")⟩

def ofJson? (j : Json) : Option Manifest := do
  match ← j.fields? ["main"] 1 with
  | [some main] => return ofMain (← main.nullable Json.text?)
  | _ => return ofMain none

def ofText? (s : String) : Option Manifest := (Json.ofText? s).bind ofJson?

theorem main_ofMain_ne_empty (main : Option String) : (ofMain main).main ≠ some "" := by
  simp [ofMain, Option.filter_eq_some_iff]

theorem main_ne_empty {j : Json} {m : Manifest} (h : ofJson? j = some m) : m.main ≠ some "" := by
  unfold ofJson? at h
  simp only [Option.pure_def, Option.bind_eq_bind, Option.bind_eq_some_iff] at h
  obtain ⟨values, -, h⟩ := h
  split at h
  · simp only [Option.bind_eq_some_iff, Option.some.injEq] at h
    obtain ⟨main, -, rfl⟩ := h
    exact main_ofMain_ne_empty main
  · obtain rfl := Option.some.inj h
    exact main_ofMain_ne_empty none

end Manifest

end TypeReify.Modules
