import TypeReify.Marker.Reifier
import TypeReify.Proofs.Disk.Spelling
import Mathlib.Data.List.Forall2

/-!
# Respelled paths load the same files

Two texts respell each other on a disk if whatever is written behind them leads to one place. A
loader only writes behind the paths it is given, endings and names of files, so of two paths that
respell each other it loads the same, up to the texts of errors; and an import is one of the markers
under either.

This is about `load_as_file`, `load_as_directory` and `load_index`, and about `is_marker_import`,
which compares what they find with the implementation.

Results:
* `respells_join`: behind directories that lead alike, paths respell each other.
* `place?_agrees`, `firstPlace?_agrees`: such paths load the same.
* `importsMarkers_eq`: so imports with such places are both of the markers or both not.
-/

namespace TypeReify

namespace Disk

/-- Whatever is written behind the two texts leads to one place. -/
structure Respells (d : Disk) (p q : String) : Prop where
  ne_empty : p ≠ "" ∧ q ≠ ""
  slash : p.toList.getLast? = some '/' ↔ q.toList.getLast? = some '/'
  find?_append : ∀ e, d.find? (p ++ e) = d.find? (q ++ e)

/-- Whatever is looked up from the two directories is at one place. -/
def LeadAlike (d : Disk) (p q : String) : Prop :=
  ∀ x, x ≠ "" → Path.isAbsolute x = false → d.find? (Path.join p x) = d.find? (Path.join q x)

variable {d : Disk} {p q : String}

theorem Respells.refl (hp : p ≠ "") : Respells d p p := ⟨⟨hp, hp⟩, Iff.rfl, fun _ => rfl⟩

theorem Respells.find? (h : Respells d p q) : d.find? p = d.find? q := by
  have hempty := h.find?_append ""
  rwa [String.append_empty, String.append_empty] at hempty

/-- Two spellings of a path stay so with an ending, -/
theorem Respells.append (h : Respells d p q) (e : String) : Respells d (p ++ e) (q ++ e) where
  ne_empty := by simp [h.ne_empty]
  slash := by
    by_cases he : e = ""
    · simpa [he] using h.slash
    · have hlast (p : String) : (p ++ e).toList.getLast? = e.toList.getLast? := by
        rw [String.toList_append, List.getLast?_append_of_ne_nil]
        exact fun hnil => he (String.toList_eq_nil_iff.1 hnil)
      rw [hlast, hlast]
  find?_append e' := by
    rw [String.append_assoc, String.append_assoc]
    exact h.find?_append (e ++ e')

/-- and two spellings of a directory stay so below it. -/
theorem Respells.join (h : Respells d p q) (x : String) :
    Respells d (Path.join p x) (Path.join q x) := by
  unfold Path.join
  by_cases hx : Path.isAbsolute x = true
  · rw [if_pos hx, if_pos hx]
    refine .refl ?_
    rintro rfl
    exact absurd hx (by decide)
  · rw [if_neg hx, if_neg hx, if_neg h.ne_empty.1, if_neg h.ne_empty.2]
    by_cases hslash : p.toList.getLast? = some '/'
    · rw [if_pos hslash, if_pos (h.slash.1 hslash)]
      exact h.append x
    · rw [if_neg hslash, if_neg (mt h.slash.2 hslash), String.append_assoc, String.append_assoc]
      exact h.append ("/" ++ x)

/-- Relative paths are put behind one text. -/
theorem join_eq (p : String) :
    ∃ front, ∀ x, Path.isAbsolute x = false → Path.join p x = front ++ x := by
  by_cases hp : p = ""
  · exact ⟨"", fun x hx => by simp [Path.join, hx, hp]⟩
  · by_cases hslash : p.toList.getLast? = some '/'
    · exact ⟨p, fun x hx => by simp [Path.join, hx, hp, hslash]⟩
    · exact ⟨p ++ "/", fun x hx => by simp [Path.join, hx, hp, hslash]⟩

/-- Behind directories that lead alike, paths respell each other. -/
theorem respells_join (h : d.LeadAlike p q) {x : String} (hx : x ≠ "") :
    Respells d (Path.join p x) (Path.join q x) := by
  by_cases habs : Path.isAbsolute x = true
  · rw [Path.join_of_isAbsolute habs, Path.join_of_isAbsolute habs]
    exact .refl hx
  · rw [Bool.not_eq_true] at habs
    have hnil : x.toList ≠ [] := fun hnil => hx (String.toList_eq_nil_iff.1 hnil)
    have habs' (e : String) : Path.isAbsolute (x ++ e) = false := by
      obtain ⟨c, cs, hcs⟩ := List.exists_cons_of_ne_nil hnil
      simpa [Path.isAbsolute, hcs] using habs
    obtain ⟨front, hfront⟩ := join_eq p
    obtain ⟨front', hfront'⟩ := join_eq q
    rw [hfront x habs, hfront' x habs]
    refine ⟨by simp [hx], ?_, fun e => ?_⟩
    · rw [String.toList_append, String.toList_append, List.getLast?_append_of_ne_nil _ hnil,
        List.getLast?_append_of_ne_nil _ hnil]
    · rw [String.append_assoc, String.append_assoc, ← hfront _ (habs' e), ← hfront' _ (habs' e)]
      exact h _ (by simp [hx]) (habs' e)

/-! ## Asking the disk -/

section Asked

variable (h : d.find? p = d.find? q)
include h

theorem open?_congr : d.open? p = d.open? q := by rw [open?, open?, h]

theorem isFile_congr : d.isFile p = d.isFile q := by rw [isFile, isFile, open?_congr h]

theorem isDirectory_congr : d.isDirectory p = d.isDirectory q := by
  rw [isDirectory, isDirectory, open?_congr h]

theorem readText?_congr : d.readText? p = d.readText? q := by
  rw [readText?, readText?, open?_congr h]

theorem canonical?_congr : d.canonical? p = d.canonical? q := by
  rw [canonical?, canonical?, open?_congr h, h]

end Asked

end Disk

namespace Modules.Loader

open Disk (Respells)

variable {disk : Disk} {options : LoaderOptions} {p q : String}

/-- Outcomes that differ in texts only: both are failures, or nothing was found, or one place. -/
inductive Agrees (disk : Disk) : (a b : Except LoadFailure (Option String)) → Prop
  | failure {e e' : LoadFailure} : Agrees disk (.error e) (.error e')
  | nothing : Agrees disk (.ok none) (.ok none)
  | found {f g : String} (find_eq : disk.find? f = disk.find? g) :
      Agrees disk (.ok (some f)) (.ok (some g))

/-! ## One place -/

/-- The first file in two lists of spellings is the same file. -/
theorem find?_isFile_map {paths paths' : List String}
    (h : List.Forall₂ (Respells disk) paths paths') :
    (paths.find? disk.isFile).map disk.find? = (paths'.find? disk.isFile).map disk.find? := by
  induction h with
  | nil => rfl
  | @cons p q ps qs hpq _ ih =>
    rw [List.find?_cons, List.find?_cons, Disk.isFile_congr hpq.find?]
    split
    · exact congrArg some hpq.find?
    · exact ih

theorem file?_map (options : LoaderOptions) (h : Respells disk p q) :
    (file? disk options p).map disk.find? = (file? disk options q).map disk.find? := by
  refine find?_isFile_map (.cons h ?_)
  rw [List.forall₂_map_left_iff, List.forall₂_map_right_iff]
  exact List.forall₂_same.2 fun e _ => h.append e

theorem index?_map (options : LoaderOptions) (h : Respells disk p q) :
    (index? disk options p).map disk.find? = (index? disk options q).map disk.find? := by
  have hcandidates (p : String) : (options.indexNames.flatMap fun name =>
      options.extensions.map fun e => Path.join p (name ++ e)) =
      (options.indexNames.flatMap fun name => options.extensions.map (name ++ ·)).map
      (Path.join p) := by
    simp [List.map_flatMap, Function.comp_def]
  rw [index?, index?, hcandidates, hcandidates]
  refine find?_isFile_map ?_
  rw [List.forall₂_map_left_iff, List.forall₂_map_right_iff]
  exact List.forall₂_same.2 fun x _ => h.join x

/-- A manifest is looked up in the directory, and the places it names lie below it. -/
theorem mainOrIndex?_map (options : LoaderOptions) (h : Respells disk p q)
    (manifest : Option Manifest) :
    (mainOrIndex? disk options p manifest).map disk.find? =
      (mainOrIndex? disk options q manifest).map disk.find? := by
  unfold mainOrIndex?
  rw [Option.map_or, Option.map_or, index?_map options h]
  congr 1
  cases manifest.bind (·.main) with
  | none => rfl
  | some main =>
    simp only [Option.map_some, Option.bind_some, Option.map_or]
    rw [file?_map options (h.join main), index?_map options (h.join main)]

/-- Outcomes that lie at one place agree. -/
theorem agrees_of_map {a b : Option String} (h : a.map disk.find? = b.map disk.find?) :
    Agrees disk (.ok a) (.ok b) := by
  cases a <;> cases b
  · exact .nothing
  · cases h
  · cases h
  · exact .found (Option.some.inj h)

/-- A manifest is read at a place, so spellings of it read the same or both fail. -/
theorem manifest?_congr (h : Respells disk p q) :
    (∃ manifest, manifest? disk p = .ok manifest ∧ manifest? disk q = .ok manifest) ∨
      ∃ e e', manifest? disk p = .error e ∧ manifest? disk q = .error e' := by
  have hpath := (h.join "package.json").find?
  simp only [manifest?, Disk.isFile_congr hpath, Disk.readText?_congr hpath]
  split
  · cases (disk.readText? (Path.join q "package.json")).bind Manifest.ofText? with
    | none => exact .inr ⟨_, _, rfl, rfl⟩
    | some manifest => exact .inl ⟨_, rfl, rfl⟩
  · exact .inl ⟨_, rfl, rfl⟩

theorem directory?_agrees (h : Respells disk p q) :
    Agrees disk (directory? disk options p) (directory? disk options q) := by
  unfold directory?
  rw [Disk.isDirectory_congr h.find?]
  split
  · rcases manifest?_congr h with ⟨manifest, hp, hq⟩ | ⟨e, e', hp, hq⟩
    · rw [hp, hq]
      exact agrees_of_map (mainOrIndex?_map options h manifest)
    · rw [hp, hq]
      exact .failure
  · exact .nothing

theorem place?_agrees (h : Respells disk p q) :
    Agrees disk (place? disk options p) (place? disk options q) := by
  have hfile := file?_map options h
  unfold place?
  cases hp : file? disk options p <;> cases hq : file? disk options q <;> rw [hp, hq] at hfile
  · exact directory?_agrees h
  · cases hfile
  · cases hfile
  · exact .found (Option.some.inj hfile)

/-! ## One place after the other -/

/-- Places are tried in order, and the first that holds something counts. -/
theorem firstPlace?_append (paths paths' : List String) :
    firstPlace? disk options (paths ++ paths') =
    match firstPlace? disk options paths with
    | .ok none => firstPlace? disk options paths'
    | outcome => outcome := by
  induction paths with
  | nil => rfl
  | cons path paths ih =>
    rw [List.cons_append, firstPlace?, firstPlace?]
    cases place? disk options path with
    | error e => rfl
    | ok first =>
      cases first with
      | none => exact ih
      | some found => rfl

theorem firstPlace?_singleton (path : String) :
    firstPlace? disk options [path] = place? disk options path := by
  rw [firstPlace?]
  cases place? disk options path with
  | error e => rfl
  | ok first => cases first <;> rfl

theorem Agrees.symm {a b : Except LoadFailure (Option String)} (h : Agrees disk a b) :
    Agrees disk b a := by
  cases h with
  | failure => exact .failure
  | nothing => exact .nothing
  | found find_eq => exact .found find_eq.symm

section Append

variable {ps ps' qs qs' : List String}

/-- Searching on after places where the same was found. -/
theorem Agrees.append (h : Agrees disk (firstPlace? disk options ps) (firstPlace? disk options qs))
    (h' : Agrees disk (firstPlace? disk options ps') (firstPlace? disk options qs')) :
    Agrees disk (firstPlace? disk options (ps ++ ps')) (firstPlace? disk options (qs ++ qs')) := by
  rw [firstPlace?_append, firstPlace?_append]
  generalize firstPlace? disk options ps = a at h
  generalize firstPlace? disk options qs = b at h
  cases h with
  | failure => exact .failure
  | nothing => exact h'
  | found find_eq => exact .found find_eq

/-- Places where nothing new can be found may be searched as well. -/
theorem Agrees.append_again
    (h : Agrees disk (firstPlace? disk options ps) (firstPlace? disk options qs))
    (h' : Agrees disk (firstPlace? disk options ps') (firstPlace? disk options qs)) :
    Agrees disk (firstPlace? disk options (ps ++ ps')) (firstPlace? disk options qs) := by
  rw [firstPlace?_append]
  generalize firstPlace? disk options ps = a at h
  generalize firstPlace? disk options qs = b at h h'
  cases h with
  | failure => exact .failure
  | nothing => exact h'
  | found find_eq => exact .found find_eq

/-- So lists of spellings, tried in order, come to the same place. -/
theorem firstPlace?_agrees (options : LoaderOptions) (h : List.Forall₂ (Respells disk) ps qs) :
    Agrees disk (firstPlace? disk options ps) (firstPlace? disk options qs) := by
  induction h with
  | nil => exact .nothing
  | @cons p q ps qs hpq _ ih =>
    have hplace : Agrees disk (firstPlace? disk options [p]) (firstPlace? disk options [q]) := by
      rw [firstPlace?_singleton, firstPlace?_singleton]
      exact place?_agrees hpq
    exact hplace.append ih

end Append

/-! ## Imports of the markers -/

theorem canonical_congr {f g : String} (h : disk.find? f = disk.find? g) :
    (∃ path, canonical disk f = .ok path ∧ canonical disk g = .ok path) ∨
      ∃ e e', canonical disk f = .error e ∧ canonical disk g = .error e' := by
  unfold canonical
  rw [Disk.canonical?_congr h]
  cases disk.canonical? g with
  | none => exact .inr ⟨_, _, rfl, rfl⟩
  | some path => exact .inl ⟨path, rfl, rfl⟩

/-- An import resolves alike from files whose places agree. -/
theorem resolveImport_congr {specifier file file' : String}
    (h : Agrees disk (firstPlace? disk options (places disk specifier (Path.directory file)))
      (firstPlace? disk options (places disk specifier (Path.directory file')))) :
    (∃ path, resolveImport disk options specifier file = .ok path ∧
        resolveImport disk options specifier file' = .ok path) ∨
      ∃ e e', resolveImport disk options specifier file = .error e ∧
        resolveImport disk options specifier file' = .error e' := by
  simp only [resolveImport]
  generalize firstPlace? disk options (places disk specifier (Path.directory file)) = a at h
  generalize firstPlace? disk options (places disk specifier (Path.directory file')) = b at h
  cases h with
  | failure | nothing => exact .inr ⟨_, _, rfl, rfl⟩
  | found find_eq => exact canonical_congr find_eq

/-- **Imports that are looked up in such places are both of the markers or both not.** -/
theorem importsMarkers_eq {r : Reifier} {a : Syntax.Arena} {n : Syntax.Ref} {file file' : String}
    (h : ∀ specifier, Scope.specifier? a n = some specifier →
      Agrees r.disk (firstPlace? r.disk r.loader (places r.disk specifier (Path.directory file)))
        (firstPlace? r.disk r.loader (places r.disk specifier (Path.directory file')))) :
    r.importsMarkers a file n = r.importsMarkers a file' n := by
  unfold Reifier.importsMarkers
  cases hspecifier : Scope.specifier? a n with
  | none => rfl
  | some specifier =>
    rcases resolveImport_congr (h specifier hspecifier) with ⟨path, hp, hq⟩ | ⟨e, e', hp, hq⟩
    · simp only [hp, hq]
    · simp only [hp, hq]

end Modules.Loader

end TypeReify
