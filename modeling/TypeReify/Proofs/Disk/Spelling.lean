import TypeReify.Proofs.Disk.Lookup
import TypeReify.Proofs.Path.Ancestors

/-!
# Spellings of one place

Slashes and dots between the pieces of a path change nothing on any disk, as long as a piece follows
that asks for a directory. On a disk without links a path leads where its steps lead, if it leads
anywhere, and what is put behind the path of a directory is looked up from there.

The paths that are respelled are those of importing files, which `resolve_path_specifier` and
`resolve_bare_specifier` write more behind.

Results:
* `find?_join_congr`: paths with the same steps lead on to the same places.
* `Leads.place_eq`: without links, the place that is reached is read off the steps.
* `find?_join_of_home`, `leads_of_way`: a lookup goes on from a directory, and has passed the
  directories on the way to it.
-/

namespace TypeReify

open TypeReify.Path (component? steps)

namespace FileTree

open Disk (Place)

variable {d : FileTree} {links : Nat} {place mid last : Place} {ps qs behind : List String}

/-! ## Slashes and dots -/

theorem eq_of_component? {piece piece' : String} {step : Path.Component}
    (h : component? piece = some step) (h' : component? piece' = some step) : piece = piece' := by
  unfold component? at h h'
  grind

theorem follow_idle (hps : ∀ piece ∈ ps, component? piece = none) (hbehind : behind ≠ []) :
    d.follow links place (ps ++ behind) = d.follow links place behind := by
  induction ps with
  | nil => rfl
  | cons piece ps ih =>
    by_cases hdir : ∃ entries, d.at? place = some (.directory entries)
    · obtain ⟨entries, hat⟩ := hdir
      rw [List.cons_append, follow_skip hat (hps piece List.mem_cons_self)]
      exact ih fun p hp => hps p (List.mem_cons_of_mem piece hp)
    · obtain ⟨next, rest, rfl⟩ := List.exists_cons_of_ne_nil hbehind
      rw [List.cons_append, follow_of_not_directory (not_exists.1 hdir),
        follow_of_not_directory (not_exists.1 hdir)]

/-- Behind a piece it only matters where the rest leads from any place; behind a link, with fewer
links left and its target in front. -/
theorem follow_cons_congr {piece : String} {rest rest' : List String}
    (h : ∀ place, d.follow links place rest = d.follow links place rest')
    (hlink : ∀ fewer place target, fewer < links →
      d.follow fewer place (Path.pieces target ++ rest) = d.follow fewer place
      (Path.pieces target ++ rest')) :
    d.follow links place (piece :: rest) = d.follow links place (piece :: rest') := by
  by_cases hdir : ∃ entries, d.at? place = some (.directory entries)
  · obtain ⟨entries, hat⟩ := hdir
    rcases component?_cases piece with hpiece | hpiece | hpiece
    · rw [follow_skip hat hpiece, follow_skip hat hpiece, h]
    · rw [follow_up hat hpiece, follow_up hat hpiece, h]
    · rcases hentry : entries.lookup piece with _ | _ | target | _
      · rw [follow_missing hat hpiece hentry, follow_missing hat hpiece hentry]
      · rw [follow_name hat hpiece hentry nofun, follow_name hat hpiece hentry nofun, h]
      · cases links with
        | zero => rw [follow_link_zero hat hpiece hentry, follow_link_zero hat hpiece hentry]
        | succ links =>
          rw [follow_link hat hpiece hentry, follow_link hat hpiece hentry]
          exact hlink links _ target (Nat.lt_succ_self links)
      · rw [follow_name hat hpiece hentry nofun, follow_name hat hpiece hentry nofun, h]
  · rw [follow_of_not_directory (not_exists.1 hdir), follow_of_not_directory (not_exists.1 hdir)]

/-- **Only the steps count**, where something follows them. -/
theorem follow_congr (hsteps : ps.filterMap component? = qs.filterMap component?)
    (hbehind : behind ≠ []) :
    d.follow links place (ps ++ behind) = d.follow links place (qs ++ behind) := by
  -- The pieces of a link's target come in front, in both lists, and a link is paid for.
  induction links using Nat.strongRecOn generalizing place ps qs with
  | _ links ihLinks =>
    induction ps generalizing place qs with
    | nil => exact (follow_idle (List.filterMap_eq_nil_iff.1 hsteps.symm) hbehind).symm
    | cons piece ps ih =>
      cases hpiece : component? piece with
      | none =>
        have hidle : ∀ p ∈ [piece], component? p = none := List.forall_mem_singleton.2 hpiece
        rw [List.filterMap_cons_none hpiece] at hsteps
        rw [List.cons_append]
        exact (follow_idle hidle (by simp [hbehind])).trans (ih hsteps)
      | some step =>
        rw [List.filterMap_cons_some hpiece] at hsteps
        obtain ⟨idle, piece', rest, rfl, hidle, hpiece', hrest⟩ :=
          List.filterMap_eq_cons_iff.1 hsteps.symm
        obtain rfl := eq_of_component? hpiece hpiece'
        rw [List.append_assoc, follow_idle hidle (by simp), List.cons_append, List.cons_append]
        refine follow_cons_congr (fun place => ih hrest.symm) fun fewer place target hfewer => ?_
        rw [← List.append_assoc, ← List.append_assoc]
        exact ihLinks fewer hfewer (by simp [hrest])

/-! ## Without links -/

/-- No link stands anywhere. -/
def LinkFree (d : FileTree) : Prop := ∀ place target, d.at? place ≠ some (.link target)

end FileTree

/-- One step from a place. -/
def Disk.Place.step (place : Disk.Place) : Path.Component → Disk.Place
  | .root => []
  | .here => place
  | .up => place.dropLast
  | .name text => place ++ [text]

namespace FileTree

open Disk (Place)

variable {d : FileTree} {links : Nat} {place mid last : Place} {ps qs : List String}

theorem linkFree_file (content : ByteArray) : (FileTree.file content).LinkFree := by
  intro place target h
  cases place <;> cases h

theorem linkFree_directory {entries : List (String × FileTree)}
    (h : ∀ entry ∈ entries, entry.2.LinkFree) : (FileTree.directory entries).LinkFree := by
  intro place target hat
  cases place with
  | nil => cases hat
  | cons name place =>
    rw [at?, child?] at hat
    split at hat
    · rename_i below hbelow
      obtain ⟨front, rest, hsplit, -⟩ := List.lookup_eq_some_iff.1 hbelow
      exact h (name, below) (hsplit ▸ by simp) place target hat
    · cases hat

theorem LinkFree.entry (hlinks : d.LinkFree) {entries : List (String × FileTree)}
    {piece target : String} (hat : d.at? place = some (.directory entries)) :
    entries.lookup piece ≠ some (.link target) := by
  intro hentry
  refine hlinks (place ++ [piece]) target ?_
  rw [at?_append, hat, Option.bind_some, at?, child?, hentry]
  rfl

theorem Leads.place_eq (hlinks : d.LinkFree) (h : d.Leads links place ps last) :
    last = (ps.filterMap component?).foldl Place.step place := by
  induction h with
  | here => rfl
  | skip _ piece_eq _ ih => rw [ih, List.filterMap_cons_none piece_eq]
  | up _ piece_eq _ ih => rw [ih, List.filterMap_cons_some piece_eq]; rfl
  | name _ piece_eq _ _ _ ih => rw [ih, List.filterMap_cons_some piece_eq]; rfl
  | link at_place _ entry => exact absurd entry (hlinks.entry at_place)

theorem Leads.trans (hlinks : d.LinkFree) (h : d.Leads links place ps mid)
    (h' : d.Leads links mid qs last) : d.Leads links place (ps ++ qs) last := by
  induction h with
  | here => exact h'
  | skip at_place piece_eq _ ih => exact .skip at_place piece_eq (ih h')
  | up at_place piece_eq _ ih => exact .up at_place piece_eq (ih h')
  | name at_place piece_eq entry no_link _ ih => exact .name at_place piece_eq entry no_link (ih h')
  | link at_place _ entry => exact absurd entry (hlinks.entry at_place)

/-- A lookup comes past every place on the way. -/
theorem Leads.split (hlinks : d.LinkFree) (h : d.Leads links place (ps ++ qs) last) :
    ∃ mid, d.Leads links place ps mid ∧ d.Leads links mid qs last := by
  induction ps generalizing place with
  | nil => exact ⟨place, .here, h⟩
  | cons piece ps ih =>
    cases h with
    | skip at_place piece_eq behind =>
      obtain ⟨mid, hmid, hlast⟩ := ih behind
      exact ⟨mid, .skip at_place piece_eq hmid, hlast⟩
    | up at_place piece_eq behind =>
      obtain ⟨mid, hmid, hlast⟩ := ih behind
      exact ⟨mid, .up at_place piece_eq hmid, hlast⟩
    | name at_place piece_eq entry no_link behind =>
      obtain ⟨mid, hmid, hlast⟩ := ih behind
      exact ⟨mid, .name at_place piece_eq entry no_link hmid, hlast⟩
    | link at_place _ entry => exact absurd entry (hlinks.entry at_place)

end FileTree

namespace Disk

variable {d : Disk} {p q x : String} {home place : Place}

/-- The pieces that a path stands for in front of another path. -/
def stem (d : Disk) (p : String) : List String :=
  (if Path.isAbsolute p then [] else Path.stem d.current) ++ Path.stem p

theorem join_ne_empty (hx : x ≠ "") (p : String) : Path.join p x ≠ "" := by
  unfold Path.join
  split
  · exact hx
  · split
    · exact hx
    · split <;> simp [hx]

/-- A lookup of joined paths takes the pieces one after the other. -/
theorem find?_join (hx : x ≠ "") (hrel : Path.isAbsolute x = false) (d : Disk) (p : String) :
    d.find? (Path.join p x) =
      if (Path.isAbsolute p || Path.isAbsolute d.current) = true then
        d.tree.follow linkLimit [] (d.stem p ++ Path.pieces x)
      else none := by
  have habs : Path.isAbsolute (Path.join p x) = Path.isAbsolute p := by
    rw [Path.isAbsolute_join, hrel, Bool.false_or]
  have hpieces : Path.pieces (Path.join d.current (Path.join p x)) = d.stem p ++ Path.pieces x := by
    unfold stem
    cases hp : Path.isAbsolute p with
    | true =>
      rw [Path.join_of_isAbsolute (habs.trans hp), Path.pieces_join hrel]
      rfl
    | false =>
      rw [Path.pieces_join (habs.trans hp), Path.pieces_join hrel]
      simp
  simp only [find?, hpieces, Path.isAbsolute_join, hrel, Bool.false_or, join_ne_empty hx p, ne_eq,
    not_false_eq_true, true_and]

theorem filterMap_stem (d : Disk) (p : String) : (d.stem p).filterMap component? =
    (if Path.isAbsolute p then [] else steps d.current) ++ steps p := by
  unfold stem
  rw [List.filterMap_append, Path.filterMap_stem]
  split
  · rfl
  · rw [Path.filterMap_stem]

/-- **Paths with the same steps lead on to the same places.** -/
theorem find?_join_congr (h : Path.SameSteps p q) (hx : x ≠ "") (hrel : Path.isAbsolute x = false)
    (d : Disk) : d.find? (Path.join p x) = d.find? (Path.join q x) := by
  have hstems : (d.stem p).filterMap component? = (d.stem q).filterMap component? := by
    rw [filterMap_stem, filterMap_stem, h.absolute_eq, h.steps_eq]
  rw [find?_join hx hrel, find?_join hx hrel, h.absolute_eq,
    FileTree.follow_congr hstems (Path.pieces_ne_nil x)]

/-! ## The places on the way -/

/-- Where steps lead from the root or from the current directory. -/
def placeOf (d : Disk) (absolute : Bool) (way : List Path.Component) : Place :=
  ((if absolute then [] else steps d.current) ++ way).foldl Place.step []

theorem placeOf_append (d : Disk) (absolute : Bool) (way behind : List Path.Component) :
    d.placeOf absolute (way ++ behind) = behind.foldl Place.step (d.placeOf absolute way) := by
  rw [placeOf, placeOf, ← List.append_assoc, List.foldl_append]

/-- Names lead further down. -/
theorem prefix_foldl_step {behind : List Path.Component} (hroot : .root ∉ behind)
    (hup : .up ∉ behind) (place : Place) : place <+: behind.foldl Place.step place := by
  induction behind generalizing place with
  | nil => exact List.prefix_rfl
  | cons step behind ih =>
    have hstep : place <+: place.step step := by
      cases step with
      | root => exact absurd List.mem_cons_self hroot
      | up => exact absurd List.mem_cons_self hup
      | here => exact List.prefix_rfl
      | name text => exact List.prefix_append place [text]
    exact hstep.trans (ih (fun h => hroot (List.mem_cons_of_mem step h))
      (fun h => hup (List.mem_cons_of_mem step h)) _)

section LinkFree

variable (hlinks : d.tree.LinkFree)
include hlinks

theorem find?_join_eq_placeOf (hx : x ≠ "") (hrel : Path.isAbsolute x = false)
    (h : d.find? (Path.join p x) = some place) :
    place = d.placeOf (Path.isAbsolute p) (steps p ++ steps x) := by
  rw [find?_join hx hrel] at h
  split at h
  · have hleads := FileTree.follow_eq_some_iff.1 h
    rw [hleads.place_eq hlinks, List.filterMap_append, filterMap_stem, placeOf, List.append_assoc]
    rfl
  · cases h

variable (hhome : d.find? (Path.join p ".") = some home)
include hhome

/-- The directory that a path leads to has been reached by the pieces of the path. -/
theorem leads_home : (Path.isAbsolute p || Path.isAbsolute d.current) = true ∧
    d.tree.Leads linkLimit [] (d.stem p) home ∧ home = d.placeOf (Path.isAbsolute p) (steps p) := by
  rw [find?_join (by decide) (by decide)] at hhome
  split at hhome
  · rename_i habs
    obtain ⟨mid, hmid, hlast⟩ := (FileTree.follow_eq_some_iff.1 hhome).split hlinks
    obtain rfl : home = mid := hlast.place_eq hlinks
    refine ⟨habs, hmid, ?_⟩
    rw [hmid.place_eq hlinks, filterMap_stem, placeOf]
  · cases hhome

/-- A lookup goes on from the directory that a path leads to. -/
theorem find?_join_of_home (hx : x ≠ "") (hrel : Path.isAbsolute x = false) :
    d.find? (Path.join p x) = d.tree.follow linkLimit home (Path.pieces x) := by
  obtain ⟨habs, hleads, -⟩ := leads_home hlinks hhome
  rw [find?_join hx hrel, if_pos habs]
  refine Option.ext fun place => ?_
  rw [FileTree.follow_eq_some_iff, FileTree.follow_eq_some_iff]
  constructor
  · intro h
    obtain ⟨mid, hmid, hplace⟩ := h.split hlinks
    obtain rfl : mid = home := (hmid.place_eq hlinks).trans (hleads.place_eq hlinks).symm
    exact hplace
  · exact hleads.trans hlinks

/-- The way to a directory comes past the places that the beginnings of its steps lead to. -/
theorem leads_of_way (habs : Path.isAbsolute q = Path.isAbsolute p) (hway : steps q <+: steps p) :
    d.tree.Leads linkLimit [] (d.stem q) (d.placeOf (Path.isAbsolute p) (steps q)) := by
  obtain ⟨behind, hbehind⟩ := hway
  have hstem : (d.stem p).filterMap component? = (d.stem q).filterMap component? ++ behind := by
    rw [filterMap_stem, filterMap_stem, habs, List.append_assoc, hbehind]
  obtain ⟨front, rest, hsplit, hfront, -⟩ := List.filterMap_eq_append_iff.1 hstem
  rw [find?_join (by decide) (by decide), hsplit, List.append_assoc] at hhome
  split at hhome
  · rw [FileTree.follow_congr hfront (by simp [Path.pieces_ne_nil])] at hhome
    obtain ⟨mid, hmid, -⟩ := (FileTree.follow_eq_some_iff.1 hhome).split hlinks
    rw [placeOf, ← habs, ← filterMap_stem, ← hmid.place_eq hlinks]
    exact hmid
  · cases hhome

end LinkFree

end Disk

end TypeReify
