import TypeReify.Disk.Basic
import TypeReify.Modules.Manifest
import TypeReify.Modules.Specifier

/-!
# Loading modules from a disk

Which file does an import load when the program runs? A path is taken relative to the importing
file, a package is looked for in every `node_modules` directory above it. Either way the place is
tried as a file, then with each extension behind it, then as a directory: the main file its
manifest names, then an index file. The answer is the canonical path, so a linked package and the
package behind the link are the same.

A manifest that cannot be read ends the search: no place further up is tried.

Model of `ModuleIdentityResolver`: `resolve_import`, `resolve_file`, `resolve_path_specifier`,
`resolve_bare_specifier`, `load_as_file`, `load_as_directory` and `load_index`, whose failures are
`ResolutionFailure`. `MAX_NODE_MODULES_ANCESTORS` bounds the directories above a file.

Results:
* `file?_isFile`, `index?_isFile`: what is found is a file.
* `directory?_isFile`: what a directory loads is a file.
-/

namespace TypeReify.Modules

/-- `ResolutionOptions`: the endings that are tried, and the names of index files. -/
structure LoaderOptions where
  /-- Endings tried behind a name that is no file as it stands. -/
  extensions : List String
  /-- Names without ending of the files that stand for their directory. -/
  indexNames : List String
  deriving DecidableEq, Repr

def LoaderOptions.default : LoaderOptions := ⟨[".js", ".json", ".node"], ["index"]⟩

/-- Why a specifier loads nothing. -/
inductive LoadFailure
  | notFound (specifier directory : String)
  /-- A manifest on the way cannot be read. -/
  | invalidManifest (path : String)
  /-- A file was found whose canonical path cannot be told. -/
  | noCanonicalPath (path : String)
  deriving DecidableEq, Repr

def LoadFailure.message : LoadFailure → String
  | .notFound specifier directory =>
    "cannot find module '" ++ specifier ++ "' from '" ++ directory ++ "'"
  | .invalidManifest path => "invalid package.json " ++ path
  | .noCanonicalPath path => "cannot canonicalize " ++ path

namespace Loader

variable (disk : Disk) (options : LoaderOptions)

/-- The path itself, or the first extension that makes it a file. -/
def file? (path : String) : Option String :=
  (path :: options.extensions.map (path ++ ·)).find? disk.isFile

/-- The index file of a directory. -/
def index? (directory : String) : Option String :=
  (options.indexNames.flatMap fun name =>
    options.extensions.map fun e => Path.join directory (name ++ e)).find? disk.isFile

/-- The manifest of a directory, if it has one. -/
def manifest? (directory : String) : Except LoadFailure (Option Manifest) :=
  let path := Path.join directory "package.json"
  if disk.isFile path then
    match (disk.readText? path).bind Manifest.ofText? with
    | some m => .ok (some m)
    | none => .error (.invalidManifest path)
  else .ok none

/-- The main file by a manifest, else the index file. -/
def mainOrIndex? (directory : String) (manifest : Option Manifest) : Option String :=
  let main := (manifest.bind (·.main)).map (Path.join directory)
  (main.bind fun path => (file? disk options path).or (index? disk options path)).or
    (index? disk options directory)

/-- The file that loading a directory loads. -/
def directory? (path : String) : Except LoadFailure (Option String) :=
  if disk.isDirectory path then
    return mainOrIndex? disk options path (← manifest? disk path)
  else return none

/-- What stands at a place: a file, or what its directory loads. -/
def place? (path : String) : Except LoadFailure (Option String) :=
  match file? disk options path with
  | some found => return some found
  | none => directory? disk options path

/-- The first place that loads something. -/
def firstPlace? : List String → Except LoadFailure (Option String)
  | [] => return none
  | path :: paths => do
    match ← place? disk options path with
    | some found => return some found
    | none => firstPlace? paths

/-- The directories that packages are looked for in, nearest first. -/
def packageDirectories (directory : String) : List String :=
  let above := Path.ancestors ancestorLimit directory
  let owners := above.filter (Path.fileName? · != some "node_modules")
  (owners.map (Path.join · "node_modules")).filter disk.isDirectory

/-- The places where a specifier is looked for. -/
def places (specifier directory : String) : List String :=
  let bases := if Specifier.isPath specifier then [directory] else packageDirectories disk directory
  bases.map (Path.join · specifier)

/-- The canonical path of a file that was found. -/
def canonical (path : String) : Except LoadFailure String :=
  match disk.canonical? path with
  | some canonical => .ok canonical
  | none => .error (.noCanonicalPath path)

/-- The canonical path of the file that `specifier` loads in `importing`. -/
def resolveImport (specifier importing : String) : Except LoadFailure String := do
  let directory := Path.directory importing
  match ← firstPlace? disk options (places disk specifier directory) with
  | some found => canonical disk found
  | none => throw (.notFound specifier directory)

/-- The canonical path of a file that is named by its path. -/
def resolveFile (path : String) : Except LoadFailure String :=
  if disk.isFile path then canonical disk path
  else .error (.notFound path (Path.directory path))

theorem file?_isFile {path found : String} (h : file? disk options path = some found) :
    disk.isFile found = true := List.find?_some h

theorem index?_isFile {directory found : String} (h : index? disk options directory = some found) :
    disk.isFile found = true := List.find?_some h

theorem mainOrIndex?_isFile {directory found : String} {manifest : Option Manifest}
    (h : mainOrIndex? disk options directory manifest = some found) : disk.isFile found = true := by
  unfold mainOrIndex? at h
  rcases Option.or_eq_some_iff.1 h with h | ⟨-, h⟩
  · obtain ⟨path, -, h⟩ := Option.bind_eq_some_iff.1 h
    rcases Option.or_eq_some_iff.1 h with h | ⟨-, h⟩
    · exact file?_isFile disk options h
    · exact index?_isFile disk options h
  · exact index?_isFile disk options h

theorem directory?_isFile {path found : String}
    (h : directory? disk options path = .ok (some found)) : disk.isFile found = true := by
  unfold directory? at h
  split at h
  · cases hm : manifest? disk path with
    | error e => simp [hm, bind, Except.bind] at h
    | ok m =>
      simp only [hm, bind, Except.bind, pure, Except.pure, Except.ok.injEq] at h
      exact mainOrIndex?_isFile disk options h
  · simp [pure, Except.pure] at h

end Loader

end TypeReify.Modules
