import TypeReify.Modules.Specifier

/-!
# Looking modules up among the files of a program

Which file of the program does an import name? The answer is found by name alone: `exists` says
which names are files of the program. A path is tried as a file and then as a directory with an
`index` file; a package is tried in every `node_modules` directory above the importing file, and
beside it in `node_modules/@types`.

Model of `resolve_module_name`, `try_file_or_directory` and `try_file` with `TS_EXTENSIONS`.

Results:
* `resolve_exists`: a module found is a file of the program.
-/

namespace TypeReify.Modules.Lookup

/-- Endings of source files, in the order they are tried. -/
def extensions : List String := [".ts", ".tsx", ".d.ts"]

/-- The name under which the program keeps a file. -/
def key (fileName : String) : String := Path.normalize fileName

/-- A name written for the compiled file stands for the source file. -/
def stem (p : String) : String :=
  if p.endsWith ".js" then (p.dropEnd 3).toString
  else if p.endsWith ".jsx" then (p.dropEnd 4).toString
  else p

variable (isFile : String → Bool)

/-- The file itself if it is spelled with its ending, else the first ending that gives a file. -/
def file? (base : String) : Option String :=
  if extensions.any (fun e => base.endsWith e) && isFile base then some base
  else (extensions.map (stem base ++ ·)).find? isFile

/-- `try_file_or_directory`. -/
def fileOrDirectory? (base : String) : Option String :=
  (file? isFile base).or (file? isFile (Path.join base "index"))

/-- The directories of packages beside `directory`. -/
def packageRoots (directory : String) : List String :=
  ["node_modules", "node_modules/@types"].map (Path.join directory ·)

/-- The file of the program that `specifier` names in `importing`. -/
def resolve (specifier importing : String) : Option String :=
  let directory := Path.directory importing
  let bases :=
    if Specifier.isPath specifier then [directory]
    else (Path.ancestors ancestorLimit directory).flatMap packageRoots
  bases.findSome? fun base => fileOrDirectory? isFile (Path.normalize (Path.join base specifier))

theorem file?_exists {base found : String} (h : file? isFile base = some found) :
    isFile found = true := by
  unfold file? at h
  split at h
  · rename_i hb
    simp only [Bool.and_eq_true] at hb
    exact Option.some.inj h ▸ hb.2
  · exact List.find?_some h

theorem resolve_exists {specifier importing found : String}
    (h : resolve isFile specifier importing = some found) : isFile found = true := by
  obtain ⟨base, -, hb⟩ := List.exists_of_findSome?_eq_some h
  unfold fileOrDirectory? at hb
  rcases Option.or_eq_some_iff.1 hb with hf | ⟨-, hf⟩
  · exact file?_exists isFile hf
  · exact file?_exists isFile hf

end TypeReify.Modules.Lookup
