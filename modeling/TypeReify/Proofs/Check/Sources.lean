import TypeReify.Proofs.Scope.Fits
import Mathlib.Data.List.Induction
import Mathlib.Data.List.Nodup

/-!
# The modules of a program

Whatever files a program is made of, its modules have different keys, and their type names lead to
declarations of their own arenas. Where the files have different keys already, the modules are the
files one by one.

This is about the loop of `CheckerState::new` over the files, where a later file takes the place of
an earlier one of the same `file_key`, and about `bind_file` with the modules that
`resolve_module_name` finds.

Results:
* `Sources.keys_nodup`: no two modules share a key.
* `Sources.fits_ofFiles`: the names of every module agree with its arena.
* `Sources.modules_ofFiles`: of files with different keys, every file is a module.
* `Sources.ofFiles_kept`: no others need be looked at.
* `Sources.mem_kept_of_last?`: the last file of a key is the one that counts.
* `Sources.followType_fits`: following an import ends at a declaration of some module.
-/

namespace TypeReify.Check

open Syntax Scope

/-- The key under which a program keeps a file. -/
abbrev fileKey (f : SourceFile) : String := Modules.Lookup.key f.fileName

/-! ## Entering files -/

theorem enter_of_new {files : List (String × SourceFile)} {f : SourceFile}
    (h : fileKey f ∉ files.map (·.1)) : enter files f = files ++ [(fileKey f, f)] := by
  refine if_neg fun hany => h ?_
  obtain ⟨x, hx, hk⟩ := List.any_eq_true.1 hany
  exact List.mem_map.2 ⟨x, hx, beq_iff_eq.1 hk⟩

theorem keys_enter_of_known {files : List (String × SourceFile)} {f : SourceFile}
    (h : fileKey f ∈ files.map (·.1)) : (enter files f).map (·.1) = files.map (·.1) := by
  obtain ⟨x, hx, hk⟩ := List.mem_map.1 h
  have hany : files.any (·.1 == fileKey f) = true :=
    List.any_eq_true.2 ⟨x, hx, beq_iff_eq.2 hk⟩
  have henter : enter files f =
      files.map fun f' => if f'.1 == fileKey f then (fileKey f, f) else f' := if_pos hany
  rw [henter, List.map_map]
  refine List.map_congr_left fun y _ => ?_
  by_cases hy : y.1 = fileKey f
  · simp [hy]
  · simp [hy]

theorem nodup_enter {files : List (String × SourceFile)} (h : (files.map (·.1)).Nodup)
    (f : SourceFile) : ((enter files f).map (·.1)).Nodup := by
  by_cases hf : fileKey f ∈ files.map (·.1)
  · rw [keys_enter_of_known hf]
    exact h
  · rw [enter_of_new hf, List.map_append]
    exact h.append (List.nodup_singleton _) (List.disjoint_singleton.2 hf)

theorem nodup_foldl_enter (files : List SourceFile) {known : List (String × SourceFile)}
    (h : (known.map (·.1)).Nodup) : ((files.foldl enter known).map (·.1)).Nodup := by
  induction files generalizing known with
  | nil => exact h
  | cons f files ih => exact ih (nodup_enter h f)

theorem foldl_enter (files : List SourceFile) {known : List (String × SourceFile)}
    (h : (known.map (·.1) ++ files.map fileKey).Nodup) :
    files.foldl enter known = known ++ files.map fun f => (fileKey f, f) := by
  induction files generalizing known with
  | nil => simp
  | cons f files ih =>
    have hnew : fileKey f ∉ known.map (·.1) := by
      intro hmem
      exact (List.nodup_append.1 h).2.2 _ hmem _ List.mem_cons_self rfl
    rw [List.foldl_cons, enter_of_new hnew, ih, List.append_assoc]
    · rfl
    · simpa [List.append_assoc] using h

/-- Files are kept under their own keys. -/
theorem key_of_mem_foldl_enter (files : List SourceFile) {known : List (String × SourceFile)}
    (h : ∀ x ∈ known, x.1 = fileKey x.2) : ∀ x ∈ files.foldl enter known, x.1 = fileKey x.2 := by
  induction files generalizing known with
  | nil => exact h
  | cons f files ih =>
    refine ih fun x hx => ?_
    unfold enter at hx
    dsimp only at hx
    split at hx
    · obtain ⟨y, hy, rfl⟩ := List.mem_map.1 hx
      split
      · rfl
      · exact h y hy
    · rcases List.mem_append.1 hx with hx | hx
      · exact h x hx
      · rw [List.mem_singleton.1 hx]

namespace Sources

/-- The names of the module agree with its file. -/
def Fits (m : Module) : Prop :=
  m.names.locals.types.Fits m.file ∧ m.names.exported.types.Fits m.file

theorem keys_ofFiles (files : List SourceFile) :
    (ofFiles files).modules.map (·.key) = (files.foldl enter []).map (·.1) := by
  unfold ofFiles
  rw [List.map_map]
  rfl

/-- No two modules share a key. -/
theorem keys_nodup (files : List SourceFile) : ((ofFiles files).modules.map (·.key)).Nodup := by
  rw [keys_ofFiles]
  exact nodup_foldl_enter files List.nodup_nil

theorem fits_ofFiles {files : List SourceFile} {m : Module} (hm : m ∈ (ofFiles files).modules) :
    Fits m := by
  obtain ⟨x, -, rfl⟩ := List.mem_map.1 hm
  exact ⟨fits_locals _ _, fits_exported _ _⟩

/-- The file that a program keeps under a key. -/
def fileAt? (files : List SourceFile) (key : String) : Option SourceFile :=
  files.find? (fileKey · == key)

/-- The key of the file that an import specifier of `f` names. -/
def importedKey? (files : List SourceFile) (f : SourceFile) (specifier : String) :
    Option String :=
  Modules.Lookup.resolve (fun key => (fileAt? files key).isSome) specifier (fileKey f)

/-- A file as a module of the program. -/
def moduleOf (files : List SourceFile) (f : SourceFile) : Module where
  key := fileKey f
  file := f
  names := bindFile f.arena (importedKey? files f) f.statements

@[simp] theorem file_moduleOf (files : List SourceFile) (f : SourceFile) :
    (moduleOf files f).file = f := rfl

section Distinct

variable {files : List SourceFile} (h : (files.map fileKey).Nodup)
include h

/-- Of files with different keys, every file is a module. -/
theorem modules_ofFiles : (ofFiles files).modules = files.map (moduleOf files) := by
  have hkeyed : files.foldl enter [] = files.map fun f => (fileKey f, f) := foldl_enter files h
  have hfile (key : String) : (files.map fun f => (fileKey f, f)).any (·.1 == key) =
      (fileAt? files key).isSome := by
    rw [Bool.eq_iff_iff, fileAt?, List.find?_isSome, List.any_map, List.any_eq_true]
    rfl
  unfold ofFiles
  rw [hkeyed]
  dsimp only
  rw [List.map_map]
  refine List.map_congr_left fun f _ => ?_
  simp only [Function.comp, hfile]
  rfl

theorem moduleOf_mem {f : SourceFile} (hf : f ∈ files) :
    moduleOf files f ∈ (ofFiles files).modules := by
  rw [modules_ofFiles h]
  exact List.mem_map_of_mem hf

theorem find?_ofFiles (key : String) :
    (ofFiles files).find? key = (fileAt? files key).map (moduleOf files) := by
  rw [find?, modules_ofFiles h, List.find?_map]
  rfl

end Distinct

/-- The files that a program is made of. Of the files with one key the last one counts, in the place
of the first. -/
def kept (files : List SourceFile) : List SourceFile := (files.foldl enter []).map (·.2)

/-- The file that counts of all files with a key. -/
def last? (files : List SourceFile) (key : String) : Option SourceFile :=
  (files.filter (fileKey · == key)).getLast?

theorem keys_kept (files : List SourceFile) :
    (kept files).map fileKey = (files.foldl enter []).map (·.1) := by
  have hkey : ∀ x ∈ files.foldl enter [], x.1 = fileKey x.2 :=
    key_of_mem_foldl_enter files fun _ hx => absurd hx List.not_mem_nil
  rw [kept, List.map_map]
  exact List.map_congr_left fun x hx => (hkey x hx).symm

theorem nodup_kept (files : List SourceFile) : ((kept files).map fileKey).Nodup := by
  rw [keys_kept]
  exact nodup_foldl_enter files List.nodup_nil

/-- The modules of any files are those of the files that count. -/
theorem ofFiles_kept (files : List SourceFile) : ofFiles (kept files) = ofFiles files := by
  have hkey : ∀ x ∈ files.foldl enter [], x.1 = fileKey x.2 :=
    key_of_mem_foldl_enter files fun _ hx => absurd hx List.not_mem_nil
  have hsame : (kept files).foldl enter [] = files.foldl enter [] := by
    refine (foldl_enter _ (List.nil_append _ ▸ nodup_kept files)).trans ?_
    rw [List.nil_append, kept, List.map_map]
    refine (List.map_congr_left fun x hx => ?_).trans (List.map_id _)
    exact Prod.ext (hkey x hx).symm rfl
  unfold ofFiles
  rw [hsame]

theorem exists_distinct (files : List SourceFile) :
    ∃ kept : List SourceFile, (kept.map fileKey).Nodup ∧ ofFiles kept = ofFiles files :=
  ⟨kept files, nodup_kept files, ofFiles_kept files⟩

/-- Entering a file changes what is kept under its own key only. -/
theorem mem_enter {files : List (String × SourceFile)} {f g : SourceFile} {key : String} :
    (key, g) ∈ enter files f ↔ if key = fileKey f then g = f else (key, g) ∈ files := by
  unfold enter
  dsimp only
  split
  · rename_i hany
    obtain ⟨x, hx, hkey⟩ := List.any_eq_true.1 hany
    rw [List.mem_map]
    split
    · rename_i heq
      constructor
      · rintro ⟨y, -, hy⟩
        split at hy
        · exact (congrArg Prod.snd hy).symm
        · rename_i hne
          exact absurd (beq_iff_eq.2 ((congrArg Prod.fst hy).trans heq)) hne
      · rintro rfl
        exact ⟨x, hx, by rw [if_pos hkey, heq]⟩
    · rename_i hne
      constructor
      · rintro ⟨y, hy, hyf⟩
        split at hyf
        · exact absurd (congrArg Prod.fst hyf).symm hne
        · exact hyf ▸ hy
      · exact fun h => ⟨_, h, if_neg (by simpa using hne)⟩
  · rename_i hany
    rw [List.mem_append, List.mem_singleton, Prod.mk.injEq]
    split
    · rename_i heq
      have hnot : (key, g) ∉ files := fun h => hany (List.any_eq_true.2 ⟨_, h, beq_iff_eq.2 heq⟩)
      rw [or_iff_right hnot, and_iff_right heq]
    · rename_i hne
      rw [or_iff_left fun h => hne h.1]

theorem mem_foldl_enter (files : List SourceFile) {key : String} {g : SourceFile} :
    (key, g) ∈ files.foldl enter [] ↔ last? files key = some g := by
  induction files using List.reverseRecOn with
  | nil => simp [last?]
  | append_singleton files f ih =>
    rw [List.foldl_append, List.foldl_cons, List.foldl_nil, mem_enter, ih, last?, last?,
      List.filter_append]
    by_cases hkey : key = fileKey f
    · simp [hkey, eq_comm]
    · simp [hkey, Ne.symm hkey]

/-- The last file of a key is the one that counts. -/
theorem mem_kept_of_last? {files : List SourceFile} {key : String} {g : SourceFile}
    (h : last? files key = some g) : g ∈ kept files ∧ fileKey g = key := by
  have hmem := (mem_foldl_enter files).2 h
  refine ⟨List.mem_map_of_mem hmem, ?_⟩
  exact (key_of_mem_foldl_enter files (fun _ hx => absurd hx List.not_mem_nil) _ hmem).symm

/-! ## Following imports -/

variable {s : Sources}

theorem mem_of_find? {key : String} {m : Module} (h : s.find? key = some m) :
    m ∈ s.modules ∧ m.key = key :=
  ⟨List.mem_of_find?_eq_some h, beq_iff_eq.1
    (List.find?_some (p := fun m : Module => m.key == key) h)⟩

/-- Following an import does not end at an import. -/
theorem followType_ne_imported {hops : Nat} {m m' : Module} {name name' exported : String}
    {symbol : TypeName} {module : Option String} :
    s.followType hops m name symbol ≠ some (m', name', .imported module exported) := by
  induction hops generalizing m name symbol with
  | zero => cases symbol <;> simp [followType]
  | succ hops ih =>
    cases symbol with
    | imported module exported =>
      simp only [followType, Option.bind_eq_bind, ne_eq, Option.bind_eq_some_iff,
        not_exists, not_and]
      exact fun _ _ _ _ _ _ => ih
    | interface _ _ | typeAlias _ => simp [followType]

/-- Following an import ends at a declaration of some module. -/
theorem followType_fits (hs : ∀ m ∈ s.modules, Fits m) : ∀ {hops : Nat} {m : Module} {name : String}
    {symbol : TypeName} {m' : Module} {name' : String} {symbol' : TypeName}, m ∈ s.modules →
    symbol.Fits m.file name → s.followType hops m name symbol = some (m', name', symbol') →
    m' ∈ s.modules ∧ symbol'.Fits m'.file name' := by
  intro hops
  induction hops with
  | zero =>
    intro m name symbol m' name' symbol' hm hfits h
    cases symbol with
    | imported _ _ => exact absurd h nofun
    | interface _ _ | typeAlias _ =>
      obtain ⟨rfl, rfl, rfl⟩ : m = m' ∧ name = name' ∧ _ = symbol' := by
        simpa [followType] using h
      exact ⟨hm, hfits⟩
  | succ hops ih =>
    intro m name symbol m' name' symbol' hm hfits h
    cases symbol with
    | imported module exported =>
      simp only [followType, Option.bind_eq_bind, Option.bind_eq_some_iff] at h
      obtain ⟨key, -, target, htarget, t, ht, h⟩ := h
      obtain ⟨hmem, -⟩ := mem_of_find? htarget
      exact ih hmem ((hs target hmem).2 exported t ht) h
    | interface _ _ | typeAlias _ =>
      obtain ⟨rfl, rfl, rfl⟩ : m = m' ∧ name = name' ∧ _ = symbol' := by
        simpa [followType] using h
      exact ⟨hm, hfits⟩

end Sources

end TypeReify.Check
