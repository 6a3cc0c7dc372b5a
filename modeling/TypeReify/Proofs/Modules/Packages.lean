import TypeReify.Program
import TypeReify.Proofs.Modules.Respelling
import TypeReify.Syntax.Draft

/-!
# Where packages are looked for

A package is looked for in the `node_modules` directories beside the places that the importing
file's path comes past. Where the path climbs, some of these do not lie above the file:
`/app/sub/../main.ts` comes past `/app/sub`. On a disk without links the places are read off the
steps of the path (`Passes`); if it climbs nowhere they are the file's directory and the directories
above it, and files with one key have the same imports of the markers, however they are spelled.

This is about `resolve_bare_specifier`, which takes the ancestors of the importing file's path as it
is spelled, at most `MAX_NODE_MODULES_ANCESTORS` of them.

**`consults_iff_passes`** says where packages are looked for, and which spellings of a file agree.

Results:
* `packages_agree`: paths with the same steps look packages up alike, on every disk.
* `consults_climbing`: two spellings of one file that do not.

Out of scope: disks with links, where the directory above a place is not told by its path.
-/

namespace TypeReify.Modules.Loader

open Disk (Place Respells)
open TypeReify.Path (steps)

variable {disk : Disk} {options : LoaderOptions} {p q specifier importing : String}
  {home owner : Place}

/-- For imports of the file, packages are looked for in the `node_modules` directory that stands in
`owner`. -/
def Consults (disk : Disk) (importing : String) (owner : Place) : Prop :=
  ∃ path ∈ packageDirectories disk (Path.directory importing),
    disk.find? path = some (owner ++ ["node_modules"])

/-- The path of a directory comes past `owner`: a beginning of its steps leads there, which is near
enough to the end and does not itself end in `node_modules`. -/
def Passes (disk : Disk) (directory : String) (owner : Place) : Prop :=
  ∃ way, way <+: steps directory ∧ (steps directory).length < way.length + ancestorLimit ∧
    way.getLast? ≠ some (.name "node_modules") ∧
    owner = disk.placeOf (Path.isAbsolute directory) way

/-! ## Level by level -/

/-- The place where a package is looked for beside one directory. -/
def beside (disk : Disk) (specifier directory : String) : List String :=
  if Path.fileName? directory ≠ some "node_modules" ∧
      disk.isDirectory (Path.join directory "node_modules") = true then
    [Path.join (Path.join directory "node_modules") specifier]
  else []

theorem mem_packageDirectories {directory path : String} :
    path ∈ packageDirectories disk directory ↔
    ∃ q ∈ Path.ancestors ancestorLimit directory, Path.fileName? q ≠ some "node_modules" ∧
      path = Path.join q "node_modules" ∧ disk.isDirectory path = true := by
  simp only [packageDirectories, List.mem_filter, List.mem_map, bne_iff_ne]
  constructor
  · rintro ⟨⟨q, ⟨hq, hname⟩, rfl⟩, hdirectory⟩
    exact ⟨q, hq, hname, rfl, hdirectory⟩
  · rintro ⟨q, hq, hname, rfl, hdirectory⟩
    exact ⟨⟨q, ⟨hq, hname⟩, rfl⟩, hdirectory⟩

theorem places_of_package (h : Specifier.isPath specifier = false) (directory : String) :
    places disk specifier directory =
      (Path.ancestors ancestorLimit directory).flatMap (beside disk specifier) := by
  have hlist (above : List String) :
      (((above.filter (Path.fileName? · != some "node_modules")).map
        (Path.join · "node_modules")).filter
        disk.isDirectory).map (Path.join · specifier) = above.flatMap (beside disk specifier) := by
    induction above with
    | nil => rfl
    | cons directory above ih =>
      rw [List.flatMap_cons, ← ih, beside]
      by_cases hname : Path.fileName? directory = some "node_modules"
      · simp [hname]
      · by_cases hdirectory : disk.isDirectory (Path.join directory "node_modules") = true
        · simp [hname, hdirectory]
        · simp [hname, hdirectory]
  rw [places, if_neg (by simp [h])]
  exact hlist _

theorem places_of_path (h : Specifier.isPath specifier = true) (directory : String) :
    places disk specifier directory = [Path.join directory specifier] := by
  rw [places, if_pos h]
  rfl

/-! ## Spellings that agree -/

theorem beside_respells (h : Path.SameSteps p q) (disk : Disk) (specifier : String) :
    List.Forall₂ (Respells disk) (beside disk specifier p) (beside disk specifier q) := by
  have hjoin : Respells disk (Path.join p "node_modules") (Path.join q "node_modules") :=
    Disk.respells_join (fun x hx hrel => Disk.find?_join_congr h hx hrel disk) (by decide)
  have hname : Path.fileName? p = Path.fileName? q := Option.ext fun text => by
    rw [Path.fileName?_eq_some_iff, Path.fileName?_eq_some_iff, h.steps_eq]
  unfold beside
  rw [hname, Disk.isDirectory_congr hjoin.find?]
  split
  · exact .cons (hjoin.join specifier) .nil
  · exact .nil

theorem packages_agree_of_parent {p' : String} (h : Path.SameSteps p q)
    (hp : Path.parent? p = some p') (hq : Path.parent? q = none) (disk : Disk)
    (options : LoaderOptions) (specifier : String) (limit : Nat) :
    Agrees disk
      (firstPlace? disk options ((Path.ancestors (limit + 1) p).flatMap (beside disk specifier)))
      (firstPlace? disk options ((Path.ancestors (limit + 1) q).flatMap
        (beside disk specifier))) := by
  -- The one level more is the empty path, where the same was looked for before.
  obtain ⟨rfl, hempty⟩ := h.of_parent hp hq
  have hbeside := firstPlace?_agrees options (beside_respells h disk specifier)
  have habove : Path.ancestors (limit + 1) q = [q] := by rw [Path.ancestors, hq]
  have hbelow : Path.ancestors (limit + 1) p = p :: Path.ancestors limit "" := by
    rw [Path.ancestors, hp]
  rw [habove, hbelow, List.flatMap_cons, List.flatMap_singleton]
  cases limit with
  | zero => simpa [Path.ancestors] using hbeside
  | succ limit =>
    have hagain := firstPlace?_agrees options (beside_respells hempty.symm disk specifier)
    have hlast : Path.ancestors (limit + 1) "" = [""] := rfl
    rw [hlast, List.flatMap_singleton]
    exact hbeside.append_again hagain

/-- **Paths with the same steps look packages up alike.** -/
theorem packages_agree (h : Path.SameSteps p q) (disk : Disk) (options : LoaderOptions)
    (specifier : String) (limit : Nat) :
    Agrees disk (firstPlace? disk options
      ((Path.ancestors limit p).flatMap (beside disk specifier)))
      (firstPlace? disk options ((Path.ancestors limit q).flatMap (beside disk specifier))) := by
  induction limit generalizing p q with
  | zero => exact .nothing
  | succ limit ih =>
    cases hp : Path.parent? p with
    | none =>
      cases hq : Path.parent? q with
      | none =>
        rw [Path.ancestors, Path.ancestors, hp, hq, List.flatMap_singleton, List.flatMap_singleton]
        exact firstPlace?_agrees _ (beside_respells h disk specifier)
      | some q' => exact (packages_agree_of_parent h.symm hq hp disk options specifier limit).symm
    | some p' =>
      cases hq : Path.parent? q with
      | none => exact packages_agree_of_parent h hp hq disk options specifier limit
      | some q' =>
        rw [Path.ancestors, Path.ancestors, hp, hq, List.flatMap_cons, List.flatMap_cons]
        exact (firstPlace?_agrees options (beside_respells h disk specifier)).append
          (ih (h.of_parents hp hq))

theorem paths_agree (h : disk.LeadAlike p q) (hpath : Specifier.isPath specifier = true) :
    Agrees disk (firstPlace? disk options (places disk specifier p))
      (firstPlace? disk options (places disk specifier q)) := by
  have hempty : specifier ≠ "" := by
    rintro rfl
    exact absurd hpath (by decide)
  rw [places_of_path hpath, places_of_path hpath]
  exact firstPlace?_agrees _ (.cons (Disk.respells_join h hempty) .nil)

variable {r : Reifier} {a : Syntax.Arena} {n : Syntax.Ref} {spelling : String}

/-- Files with the same steps have the same imports of the markers, on every disk. -/
theorem importsMarkers_of_sameSteps (h : Path.SameSteps importing spelling) :
    r.importsMarkers a importing n = r.importsMarkers a spelling n := by
  refine importsMarkers_eq fun specifier _ => ?_
  cases hpath : Specifier.isPath specifier with
  | true => exact paths_agree (fun x hx hrel => Disk.find?_join_congr h.directory hx hrel _) hpath
  | false =>
    rw [places_of_package hpath, places_of_package hpath]
    exact packages_agree h.directory _ _ _ _

/-! ## The places that are consulted -/

theorem steps_packages : steps "node_modules" = [.name "node_modules"] := by decide

theorem prefix_of_passes {directory : String} (hup : .up ∉ Path.components directory)
    (h : Passes disk directory owner) :
    owner <+: disk.placeOf (Path.isAbsolute directory) (steps directory) := by
  obtain ⟨way, ⟨behind, hbehind⟩, -, -, rfl⟩ := h
  have hsteps : steps directory ⊆ Path.components directory := List.subset_append_right _ _
  have hsub : behind ⊆ steps directory := hbehind ▸ List.subset_append_right way behind
  rw [← hbehind, Disk.placeOf_append]
  exact Disk.prefix_foldl_step (fun h => Path.root_notMem_steps _ (hsub h))
    (fun h => hup (hsteps (hsub h))) _

section LinkFree

variable (hlinks : disk.tree.LinkFree)
include hlinks

theorem find?_packages (hdirectory : disk.isDirectory (Path.join q "node_modules") = true) :
    ∃ entries, disk.find? (Path.join q "node_modules") =
        some (disk.placeOf (Path.isAbsolute q) (steps q) ++ ["node_modules"]) ∧
      disk.tree.at? (disk.placeOf (Path.isAbsolute q) (steps q) ++ ["node_modules"]) =
        some (.directory entries) := by
  obtain ⟨place, entries, hfind, hat⟩ := Disk.isDirectory_iff.1 hdirectory
  have hplace := Disk.find?_join_eq_placeOf hlinks (by decide) (by decide) hfind
  rw [steps_packages, Disk.placeOf_append] at hplace
  subst hplace
  exact ⟨entries, hfind, hat⟩

theorem passes_of_mem_packageDirectories {path : String}
    (h : path ∈ packageDirectories disk (Path.directory importing)) :
    ∃ owner entries, disk.find? path = some (owner ++ ["node_modules"]) ∧
      disk.tree.at? (owner ++ ["node_modules"]) = some (.directory entries) ∧
      Passes disk (Path.directory importing) owner := by
  obtain ⟨q, hq, hname, rfl, hdirectory⟩ := mem_packageDirectories.1 h
  obtain ⟨entries, hfind, hat⟩ := find?_packages hlinks hdirectory
  obtain ⟨hway, hlimit⟩ := Path.mem_ancestors.1 ⟨q, hq, rfl⟩
  refine ⟨_, entries, hfind, hat, steps q, hway, hlimit, ?_, ?_⟩
  · rwa [ne_eq, Path.fileName?_eq_some_iff] at hname
  · rw [(Path.of_mem_ancestors hq).1]

variable (hhome : disk.find? (Path.join (Path.directory importing) ".") = some home)
include hhome

theorem consults_of_passes (h : Passes disk (Path.directory importing) owner)
    {entries : List (String × FileTree)}
    (hat : disk.tree.at? (owner ++ ["node_modules"]) = some (.directory entries)) :
    Consults disk importing owner := by
  obtain ⟨way, hway, hlimit, hname, rfl⟩ := h
  obtain ⟨q, hq, rfl⟩ := Path.mem_ancestors.2 ⟨hway, hlimit⟩
  obtain ⟨habs, -⟩ := Path.of_mem_ancestors hq
  have hnamed : ∀ name ∈ ["node_modules"], Named name :=
    List.forall_mem_singleton.2 ⟨⟨by decide, by decide, by decide⟩, by decide⟩
  have hleads := (Disk.leads_of_way hlinks hhome habs hway).trans hlinks
    (FileTree.leads_names hnamed hat nofun)
  have hfind : disk.find? (Path.join q "node_modules") =
      some (disk.placeOf (Path.isAbsolute (Path.directory importing))
        (steps q) ++ ["node_modules"]) := by
    rw [Disk.find?_join (by decide) (by decide), habs, if_pos (Disk.leads_home hlinks hhome).1]
    exact FileTree.follow_eq_some_iff.2 hleads
  have hdirectory := Disk.isDirectory_iff.2 ⟨_, entries, hfind, hat⟩
  refine ⟨_, mem_packageDirectories.2 ⟨q, hq, ?_, rfl, hdirectory⟩, hfind⟩
  rwa [ne_eq, Path.fileName?_eq_some_iff]

end LinkFree

/-- Imports by a path are looked up from the directory itself. -/
theorem importsMarkers_of_home (hlinks : r.disk.tree.LinkFree)
    (hhome : r.disk.find? (Path.join (Path.directory importing) ".") = some home)
    (hspelling : r.disk.find? (Path.join (Path.directory spelling) ".") = some home)
    (hpath : ∀ specifier, Scope.specifier? a n = some specifier →
      Specifier.isPath specifier = true) :
    r.importsMarkers a importing n = r.importsMarkers a spelling n := by
  refine importsMarkers_eq fun specifier hspecifier =>
    paths_agree (fun x hx hrel => ?_) (hpath _ hspecifier)
  rw [Disk.find?_join_of_home hlinks hhome hx hrel,
    Disk.find?_join_of_home hlinks hspelling hx hrel]

/-- **Where packages are looked for.** On a disk without links, for a file whose directory exists:
each directory of packages that is consulted stands beside a place that the file's path comes past,
and of every such place the directory of packages is consulted if there is one. If the path of the
directory climbs nowhere, these places are the directory of the file and directories above it. What
imports the markers by a path does so under every spelling of the file's directory; what imports a
package, at least under the spellings with one key that climb nowhere. -/
theorem consults_iff_passes (hlinks : disk.tree.LinkFree)
    (hhome : disk.find? (Path.join (Path.directory importing) ".") = some home) :
    (∀ path ∈ packageDirectories disk (Path.directory importing),
        ∃ owner, disk.find? path = some (owner ++ ["node_modules"])) ∧
      (∀ owner, Consults disk importing owner ↔ Passes disk (Path.directory importing) owner ∧
        ∃ entries, disk.tree.at? (owner ++ ["node_modules"]) = some (.directory entries)) ∧
      (.up ∉ Path.components (Path.directory importing) →
        ∀ owner, Consults disk importing owner → owner <+: home) ∧
      ∀ (r : Reifier) (a : Syntax.Arena) (n : Syntax.Ref) (spelling : String), r.disk = disk →
        ((∀ specifier, Scope.specifier? a n = some specifier → Specifier.isPath specifier = true) →
          disk.find? (Path.join (Path.directory spelling) ".") = some home →
          r.importsMarkers a importing n = r.importsMarkers a spelling n) ∧
        (.up ∉ Path.components importing → .up ∉ Path.components spelling →
          Lookup.key importing = Lookup.key spelling →
          r.importsMarkers a importing n = r.importsMarkers a spelling n) := by
  have hpasses (owner : Place) (h : Consults disk importing owner) :
      Passes disk (Path.directory importing) owner ∧
        ∃ entries, disk.tree.at? (owner ++ ["node_modules"]) = some (.directory entries) := by
    obtain ⟨path, hpath, hfind⟩ := h
    obtain ⟨owner', entries, hfind', hat, hpasses⟩ := passes_of_mem_packageDirectories hlinks hpath
    rw [hfind, Option.some.injEq, List.append_cancel_right_eq] at hfind'
    subst hfind'
    exact ⟨hpasses, entries, hat⟩
  refine ⟨fun path hpath => ?_, fun owner => ⟨hpasses owner, ?_⟩, fun hup owner h => ?_, ?_⟩
  · obtain ⟨owner, -, hfind, -⟩ := passes_of_mem_packageDirectories hlinks hpath
    exact ⟨owner, hfind⟩
  · rintro ⟨h, entries, hat⟩
    exact consults_of_passes hlinks hhome h hat
  · rw [(Disk.leads_home hlinks hhome).2.2]
    exact prefix_of_passes hup (hpasses owner h).1
  · rintro r a n spelling rfl
    exact ⟨fun hpath hspelling => importsMarkers_of_home hlinks hhome hspelling hpath,
      fun hup hup' hkey => importsMarkers_of_sameSteps (Path.sameSteps_of_key hup hup' hkey)⟩

/-- A file beside a directory that has a package of its own. -/
def nestedDisk : Disk where
  tree := .directory [("app", .directory [
    ("main.ts", .file .empty),
    ("node_modules", .directory []),
    ("sub", .directory [
      ("node_modules", .directory [("pkg", .directory [("index.js", .file .empty)])])])])]
  current := ""

theorem linkFree_nestedDisk : nestedDisk.tree.LinkFree := by
  have hpackages : (FileTree.directory
    [("pkg", .directory [("index.js", .file .empty)])]).LinkFree :=
    FileTree.linkFree_directory (List.forall_mem_singleton.2
      (FileTree.linkFree_directory (List.forall_mem_singleton.2 (FileTree.linkFree_file _))))
  refine FileTree.linkFree_directory (List.forall_mem_singleton.2 (FileTree.linkFree_directory ?_))
  simp only [List.forall_mem_cons]
  exact ⟨FileTree.linkFree_file _, FileTree.linkFree_directory nofun,
    FileTree.linkFree_directory (List.forall_mem_singleton.2 hpackages), nofun⟩

/-- `import "pkg";` -/
def packageImport : Syntax.Arena := (Syntax.Draft.importForEffect "pkg" .empty).2.arena

/-- The reifier whose markers are the package. -/
def nestedReifier : Reifier :=
  .ofSettings (Program.ofFiles .default []).oracle nestedDisk
    ⟨.ofDirectory "/app/sub/node_modules/pkg", .default⟩

/-- Spelled without a climb, the file is offered the packages beside it and no others. -/
theorem consults_iff_passes_nestedDisk :
    nestedDisk.tree.LinkFree ∧
      nestedDisk.find? (Path.join (Path.directory "/app/./main.ts") ".") = some ["app"] ∧
      Consults nestedDisk "/app/./main.ts" ["app"] ∧
      ¬ Consults nestedDisk "/app/./main.ts" ["app", "sub"] ∧
      nestedReifier.importsMarkers packageImport "/app/./main.ts" (some 1) =
        nestedReifier.importsMarkers packageImport "/app//main.ts" (some 1) := by
  have hhome : nestedDisk.find? (Path.join (Path.directory "/app/./main.ts") ".") =
    some ["app"] := by
    decide +kernel
  obtain ⟨-, hconsults, habove, hsame⟩ := consults_iff_passes linkFree_nestedDisk hhome
  refine ⟨linkFree_nestedDisk, hhome, (hconsults _).2 ⟨⟨[.name "app"], ?_⟩, [], rfl⟩,
    fun h => ?_, ?_⟩
  · decide +kernel
  · exact absurd (habove (by decide +kernel) _ h) (by decide)
  · exact (hsame nestedReifier packageImport (some 1) "/app//main.ts" rfl).2 (by decide +kernel)
      (by decide +kernel) (by decide +kernel)

/-- Spelled with a climb out of the directory beside it, the same file is offered the packages of
that directory, and imports the markers where it did not. -/
theorem consults_climbing :
    nestedDisk.tree.LinkFree ∧
      nestedDisk.find? (Path.join (Path.directory "/app/sub/../main.ts") ".") = some ["app"] ∧
      Consults nestedDisk "/app/sub/../main.ts" ["app", "sub"] ∧ ¬ ["app", "sub"] <+: ["app"] ∧
      Lookup.key "/app/sub/../main.ts" = Lookup.key "/app/main.ts" ∧
      nestedReifier.importsMarkers packageImport "/app/sub/../main.ts" (some 1) = true ∧
      nestedReifier.importsMarkers packageImport "/app/main.ts" (some 1) = false := by
  refine ⟨linkFree_nestedDisk, by
    decide +kernel, ?_, by decide, by decide +kernel, by decide +kernel,
    by decide +kernel⟩
  exact ⟨"/app/sub/node_modules", by decide +kernel, by decide +kernel⟩

end TypeReify.Modules.Loader
