import TypeReify.Modules.Loader
import TypeReify.Proofs.Disk.Lookup

/-!
# What requests for modules answer

A request names a file by an import, with any options, or by a path. Every route a request can take
ends at a path that was seen to name a file, so a file that is found has a canonical path, and the
answer is that path. The answer tells the file, not the way to it: links that end at one file give
one answer.

This is about `resolve_import` and `resolve_file`, which leave `load_as_file`, `load_as_directory`
and `load_index` by way of `canonicalize`.

**`answer_canonical`**: no request is left without a canonical path; what it answers is the path of
a file with no link on it, answers itself, and is the same for two requests just if they reach one
file.

Out of scope: a disk that changes between the look at a file and the path that is answered.
-/

namespace TypeReify.Modules.Loader

open Disk (Place pathOf)

/-- A request for the canonical path of a file. -/
inductive Request
  | imported (options : LoaderOptions) (specifier importing : String)
  | named (path : String)
  deriving DecidableEq, Repr

namespace Request

/-- The path that is found to name a file, as it was put together. -/
def found? (disk : Disk) : Request → Except LoadFailure (Option String)
  | imported options specifier importing =>
    firstPlace? disk options (places disk specifier (Path.directory importing))
  | named path => .ok (if disk.isFile path then some path else none)

def answer (disk : Disk) : Request → Except LoadFailure String
  | imported options specifier importing => resolveImport disk options specifier importing
  | named path => resolveFile disk path

/-- The request ends at a place, whatever links lead there. -/
def Reaches (disk : Disk) (r : Request) (place : Place) : Prop :=
  ∃ found, r.found? disk = .ok (some found) ∧ disk.find? found = some place

end Request

/-- The path of a file, by its names from the root, with no link on the way. -/
def IsCanonical (disk : Disk) (p : String) : Prop :=
  ∃ place content, p = pathOf place ∧ (∀ name ∈ place, Named name) ∧
    disk.tree.at? place = some (.file content) ∧
    ∀ n target, disk.tree.at? (place.take n) ≠ some (.link target)

variable {disk : Disk} {options : LoaderOptions} {r : Request} {p found : String} {place : Place}

/-! ## Every route ends at a file -/

theorem place?_isFile (h : place? disk options p = .ok (some found)) :
    disk.isFile found = true := by
  unfold place? at h
  split at h
  · rename_i x hfile
    obtain rfl : x = found := Option.some.inj (Except.ok.inj h)
    exact file?_isFile disk options hfile
  · exact directory?_isFile disk options h

/-- The outcome of a search is that of one of its places, or nothing. -/
theorem firstPlace?_cases (disk : Disk) (options : LoaderOptions) (paths : List String) :
    firstPlace? disk options paths = .ok none ∨
      ∃ path, firstPlace? disk options paths = place? disk options path := by
  induction paths with
  | nil => exact .inl rfl
  | cons path paths ih =>
    rw [firstPlace?]
    cases hplace : place? disk options path with
    | error e => exact .inr ⟨path, hplace.symm⟩
    | ok first =>
      cases first with
      | none => exact ih
      | some found => exact .inr ⟨path, hplace.symm⟩

theorem firstPlace?_isFile {paths : List String}
    (h : firstPlace? disk options paths = .ok (some found)) : disk.isFile found = true := by
  rcases firstPlace?_cases disk options paths with hnone | ⟨path, hplace⟩
  · rw [h] at hnone
    cases hnone
  · exact place?_isFile (hplace.symm.trans h)

theorem Request.found?_isFile (h : r.found? disk = .ok (some found)) :
    disk.isFile found = true := by
  cases r with
  | imported options specifier importing => exact firstPlace?_isFile h
  | named path =>
    by_cases hpath : disk.isFile path = true
    · rw [Request.found?, if_pos hpath] at h
      exact Option.some.inj (Except.ok.inj h) ▸ hpath
    · rw [Request.found?, if_neg hpath] at h
      cases h

/-! ## The canonical path -/

theorem canonical_of_isFile (h : disk.isFile p = true) : ∃ place content,
    disk.find? p = some place ∧ disk.tree.at? place = some (.file content) ∧
      canonical disk p = .ok (pathOf place) := by
  obtain ⟨place, content, hfind, hat⟩ := Disk.isFile_iff.1 h
  exact ⟨place, content, hfind, hat, by rw [canonical, Disk.canonical?_of_find? hfind hat]⟩

/-- The answer is the canonical path of the path that was found, or the reason why none was. -/
theorem Request.answer_cases (disk : Disk) (r : Request) :
    (∃ found, r.found? disk = .ok (some found) ∧ r.answer disk = canonical disk found) ∨
      (∃ specifier directory, r.found? disk = .ok none ∧
        r.answer disk = .error (.notFound specifier directory)) ∨
      ∃ e, r.found? disk = .error e ∧ r.answer disk = .error e := by
  cases r with
  | imported options specifier importing =>
    simp only [Request.answer, Request.found?, resolveImport]
    cases firstPlace? disk options (places disk specifier (Path.directory importing)) with
    | error e => exact .inr (.inr ⟨e, rfl, rfl⟩)
    | ok found =>
      cases found with
      | none => exact .inr (.inl ⟨_, _, rfl, rfl⟩)
      | some found => exact .inl ⟨found, rfl, rfl⟩
  | named path =>
    by_cases hpath : disk.isFile path = true
    · refine .inl ⟨path, ?_, ?_⟩
      · simp [Request.found?, hpath]
      · simp [Request.answer, resolveFile, hpath]
    · refine .inr (.inl ⟨path, Path.directory path, ?_, ?_⟩)
      · rw [Request.found?, if_neg hpath]
      · rw [Request.answer, resolveFile, if_neg hpath]

/-- What a request reaches is what it answers the canonical path of. -/
theorem Request.answer_ok (h : r.answer disk = .ok p) : ∃ place content, r.Reaches disk place ∧
    disk.tree.at? place = some (.file content) ∧ p = pathOf place := by
  rcases r.answer_cases disk with ⟨found, hfound, hanswer⟩ | ⟨specifier, directory, -, hanswer⟩ |
    ⟨e, -, hanswer⟩
  · obtain ⟨place, content, hfind, hat, hcanonical⟩ := canonical_of_isFile (found?_isFile hfound)
    rw [h, hcanonical] at hanswer
    exact ⟨place, content, ⟨found, hfound, hfind⟩, hat, Except.ok.inj hanswer⟩
  · rw [h] at hanswer
    cases hanswer
  · rw [h] at hanswer
    cases hanswer

theorem Request.Reaches.answer (h : r.Reaches disk place) : r.answer disk = .ok (pathOf place) := by
  obtain ⟨found, hfound, hfind⟩ := h
  obtain ⟨place', -, hfind', -, hcanonical⟩ := canonical_of_isFile (found?_isFile hfound)
  obtain rfl : place = place' := Option.some.inj (hfind.symm.trans hfind')
  rcases r.answer_cases disk with ⟨found', hfound', hanswer⟩ | ⟨_, _, hnone, -⟩ | ⟨e, herror, -⟩
  · obtain rfl : found = found' := Option.some.inj (Except.ok.inj (hfound.symm.trans hfound'))
    exact hanswer.trans hcanonical
  · rw [hfound] at hnone
    cases hnone
  · rw [hfound] at herror
    cases herror

theorem Request.Reaches.unique {place' : Place} (h : r.Reaches disk place)
    (h' : r.Reaches disk place') : place = place' := by
  obtain ⟨found, hfound, hfind⟩ := h
  obtain ⟨found', hfound', hfind'⟩ := h'
  rw [hfound] at hfound'
  obtain rfl : found = found' := Option.some.inj (Except.ok.inj hfound')
  exact Option.some.inj (hfind.symm.trans hfind')

theorem Request.Reaches.named (h : r.Reaches disk place) : ∀ name ∈ place, Named name := by
  obtain ⟨found, -, hfind⟩ := h
  exact Disk.named_of_find? hfind

/-- The canonical path of a file that is reached answers itself. -/
theorem Request.Reaches.resolveFile {content : ByteArray} (h : r.Reaches disk place)
    (hat : disk.tree.at? place = some (.file content)) :
    Loader.resolveFile disk (pathOf place) = .ok (pathOf place) := by
  obtain ⟨found, -, hfind⟩ := h
  have hagain : disk.find? (pathOf place) = some place := Disk.find?_pathOf hfind hat nofun
  rw [Loader.resolveFile, if_pos (Disk.isFile_iff.2 ⟨place, content, hagain, hat⟩), canonical,
    Disk.canonical?_of_find? hagain hat]

/-! ## No manifest, or no file -/

section Errors

variable {e : LoadFailure}

theorem manifest?_error (h : manifest? disk p = .error e) : ∃ path, e = .invalidManifest path := by
  simp only [manifest?] at h
  split at h
  · split at h
    · cases h
    · exact ⟨_, (Except.error.inj h).symm⟩
  · cases h

theorem place?_error (h : place? disk options p = .error e) :
    ∃ path, e = .invalidManifest path := by
  unfold place? at h
  split at h
  · cases h
  · unfold directory? at h
    split at h
    · cases hm : manifest? disk p with
      | error e' =>
        rw [hm] at h
        obtain rfl : e' = e := Except.error.inj h
        exact manifest?_error hm
      | ok manifest =>
        rw [hm] at h
        cases h
    · cases h

theorem firstPlace?_error {paths : List String} (h : firstPlace? disk options paths = .error e) :
    ∃ path, e = .invalidManifest path := by
  rcases firstPlace?_cases disk options paths with hnone | ⟨path, hplace⟩
  · rw [h] at hnone
    cases hnone
  · exact place?_error (hplace.symm.trans h)

end Errors

theorem Request.answer_ne_noCanonicalPath (disk : Disk) (r : Request) (path : String) :
    r.answer disk ≠ .error (.noCanonicalPath path) := by
  intro h
  rcases r.answer_cases disk with ⟨found, hfound, hanswer⟩ | ⟨_, _, -, hanswer⟩ |
    ⟨e, hfound, hanswer⟩
  · obtain ⟨place, -, -, -, hcanonical⟩ := canonical_of_isFile (found?_isFile hfound)
    rw [h, hcanonical] at hanswer
    cases hanswer
  · rw [h] at hanswer
    cases hanswer
  · obtain rfl : LoadFailure.noCanonicalPath path = e := Except.error.inj (h.symm.trans hanswer)
    cases r with
    | imported options specifier importing =>
      obtain ⟨manifest, hmanifest⟩ := firstPlace?_error hfound
      cases hmanifest
    | named path => cases hfound

/-- **What requests answer.** On every disk, whatever links are on it: no request fails for want of
a canonical path, and one that reaches a file answers its path. An answer is the absolute path of a
file, no name on it is a link, and asked for by that path the file has the same answer. Two answers
are the same path just if the requests, however they are spelled and with whatever options, reach
one file. -/
theorem answer_canonical (disk : Disk) (r : Request) :
    (∀ path, r.answer disk ≠ .error (.noCanonicalPath path)) ∧
      (∀ place, r.Reaches disk place → r.answer disk = .ok (pathOf place)) ∧
      (∀ p, r.answer disk = .ok p →
        Path.isAbsolute p = true ∧ IsCanonical disk p ∧ resolveFile disk p = .ok p) ∧
      ∀ r' p p', r.answer disk = .ok p → Request.answer disk r' = .ok p' →
        (Path.same p p' = true ↔ ∃ place, r.Reaches disk place ∧ r'.Reaches disk place) := by
  refine ⟨r.answer_ne_noCanonicalPath disk, fun place h => h.answer, fun p hp => ?_,
    fun r' p p' hp hp' => ?_⟩
  · obtain ⟨place, content, hreaches, hat, rfl⟩ := Request.answer_ok hp
    exact ⟨Disk.isAbsolute_pathOf place,
      ⟨place, content, rfl, hreaches.named, hat, FileTree.at?_take_ne_link hat⟩,
      hreaches.resolveFile hat⟩
  · obtain ⟨place, -, hreaches, -, rfl⟩ := Request.answer_ok hp
    obtain ⟨place', -, hreaches', -, rfl⟩ := Request.answer_ok hp'
    rw [Disk.same_pathOf_iff hreaches.named hreaches'.named]
    constructor
    · rintro rfl
      exact ⟨place, hreaches, hreaches'⟩
    · rintro ⟨shared, h, h'⟩
      exact (hreaches.unique h).trans (h'.unique hreaches')

/-- A package behind links to links, and beside it a link to itself. -/
def linkedDisk : Disk where
  tree := .directory [
    ("m", .directory [("lib", .directory [("index.js", .file .empty)]),
      ("linked", .link "./lib//")]),
    ("linked", .link "/m/linked"),
    ("node_modules", .directory [("pkg", .link "../linked"), ("loop", .link "loop")])]
  current := ""

/-- An import of the package and a path that climbs out of the directory behind a link reach one
file; an import of the link to itself finds nothing. -/
theorem answer_canonical_linkedDisk :
    let imported (specifier : String) := Request.imported .default specifier "/app/main.ts"
    let named := Request.named "/linked/../linked/index.js"
    (imported "pkg").answer linkedDisk = .ok "/m/lib/index.js" ∧
      named.answer linkedDisk = .ok "/m/lib/index.js" ∧
      (∃ place, (imported "pkg").Reaches linkedDisk place ∧ named.Reaches linkedDisk place) ∧
      IsCanonical linkedDisk "/m/lib/index.js" ∧
      (imported "loop").answer linkedDisk = .error (.notFound "loop" "/app") := by
  intro imported named
  have himported : (imported "pkg").answer linkedDisk = .ok "/m/lib/index.js" := by decide +kernel
  have hnamed : named.answer linkedDisk = .ok "/m/lib/index.js" := by decide +kernel
  obtain ⟨-, -, hanswer, hsame⟩ := answer_canonical linkedDisk (imported "pkg")
  exact ⟨himported, hnamed, (hsame named _ _ himported hnamed).1 (by decide +kernel),
    (hanswer _ himported).2.1, by decide +kernel⟩

end TypeReify.Modules.Loader
