import TypeReify.Disk.Basic
import TypeReify.Proofs.Path.Normal

/-!
# Looking paths up

A lookup goes from place to place. `Leads` says what each piece of a path does to the place reached
so far; links are followed in the middle of a path and at its end. There is no link on the way to a
place where something stands, so the path of a place leads back to it and to no other place.

The lookups are those of `is_file` and `canonicalize`, by which the loader tells files and answers
paths.

Results:
* `follow_eq_some_iff`: a lookup answers the place that the pieces lead to.
* `isFile_iff`: a path names a file if it leads to one, and that has a canonical path
  (`canonical?_of_find?`).
* `find?_pathOf`: the canonical path leads where the path leads.
-/

namespace TypeReify

open TypeReify.Path (component?)

/-- What an entry of a directory must be called for a path to mention it. -/
def Named (name : String) : Prop := Path.Counts name ∧ name ≠ ".."

namespace FileTree

open Disk (Place)

/-- From a place, pieces of a path lead to another place, through at most so many links. -/
inductive Leads (d : FileTree) : Nat → Place → List String → Place → Prop
  | here {links : Nat} {place : Place} : Leads d links place [] place
  | skip {links : Nat} {place last : Place} {piece : String} {rest : List String}
      {entries : List (String × FileTree)} (at_place : d.at? place = some (.directory entries))
      (piece_eq : component? piece = none) (behind : Leads d links place rest last) :
      Leads d links place (piece :: rest) last
  | up {links : Nat} {place last : Place} {piece : String} {rest : List String}
      {entries : List (String × FileTree)} (at_place : d.at? place = some (.directory entries))
      (piece_eq : component? piece = some .up) (behind : Leads d links place.dropLast rest last) :
      Leads d links place (piece :: rest) last
  | name {links : Nat} {place last : Place} {piece : String} {rest : List String}
      {entries : List (String × FileTree)} {x : FileTree}
      (at_place : d.at? place = some (.directory entries))
      (piece_eq : component? piece = some (.name piece)) (entry : entries.lookup piece = some x)
      (no_link : ∀ target, x ≠ .link target) (behind : Leads d links (place ++ [piece]) rest last) :
      Leads d links place (piece :: rest) last
  | link {links : Nat} {place last : Place} {piece target : String} {rest : List String}
      {entries : List (String × FileTree)} (at_place : d.at? place = some (.directory entries))
      (piece_eq : component? piece = some (.name piece))
      (entry : entries.lookup piece = some (.link target))
      (behind : Leads d links (if Path.isAbsolute target then [] else place)
        (Path.pieces target ++ rest) last) :
      Leads d (links + 1) place (piece :: rest) last

variable {d : FileTree} {links : Nat} {place last : Place} {pieces rest : List String}
  {piece target : String} {entries : List (String × FileTree)} {x : FileTree}

/-! ## One piece -/

/-- A piece means nothing, leads up, or is a name. -/
theorem component?_cases (piece : String) :
    component? piece = none ∨ component? piece = some .up ∨
    component? piece = some (.name piece) := by
  rw [Path.component?_eq_none_iff, Path.component?_eq_up_iff, Path.component?_eq_name_iff]
  grind

section Descent

variable {place' base : Place} {pieces' : List String}

/-- What is followed from a place depends on where the pieces lead from it. -/
theorem follow_of_descend (h : d.descend place pieces = d.descend place' pieces') :
    d.follow links place pieces = d.follow links place' pieces' := by
  unfold follow
  rw [h]

theorem follow_of_missing (h : d.descend place pieces = .missing) :
    d.follow links place pieces = none := by
  unfold follow
  rw [h]

theorem follow_of_no_links (h : d.descend place pieces = .link base target rest) :
    d.follow 0 place pieces = none := by
  unfold follow
  rw [h]

/-- A link is followed from the directory it stands in, or from the root, and the rest goes on from
there. -/
theorem follow_of_link (h : d.descend place pieces = .link base target rest) :
    d.follow (links + 1) place pieces =
      d.follow links (if Path.isAbsolute target then [] else base)
      (Path.pieces target ++ rest) := by
  rw [follow.eq_def]
  simp only [h]

end Descent

/-- Nothing lies below what is no directory. -/
theorem follow_of_not_directory (h : ∀ entries, d.at? place ≠ some (.directory entries)) :
    d.follow links place (piece :: rest) = none := by
  refine follow_of_missing ?_
  rw [descend.eq_2]
  split
  · rename_i entries hat
    exact absurd hat (h entries)
  · rfl

section Directory

variable (h : d.at? place = some (.directory entries))
include h

theorem follow_skip (hpiece : component? piece = none) :
    d.follow links place (piece :: rest) = d.follow links place rest := by
  refine follow_of_descend ?_
  rw [descend.eq_2, h]
  exact if_pos (Path.component?_eq_none_iff.1 hpiece)

/-- `..` leaves the directory that was entered last. -/
theorem follow_up (hpiece : component? piece = some .up) :
    d.follow links place (piece :: rest) = d.follow links place.dropLast rest := by
  obtain rfl := Path.component?_eq_up_iff.1 hpiece
  refine follow_of_descend ?_
  rw [descend.eq_2, h]
  rfl

variable (hpiece : component? piece = some (.name piece))
include hpiece

theorem follow_missing (hname : entries.lookup piece = none) :
    d.follow links place (piece :: rest) = none := by
  obtain ⟨hempty, hup⟩ := Path.component?_eq_name_iff.1 hpiece
  refine follow_of_missing ?_
  simp only [descend.eq_2, h, if_neg hempty, if_neg hup, hname]

/-- A name that is no link is a step down. -/
theorem follow_name (hname : entries.lookup piece = some x) (hx : ∀ target, x ≠ .link target) :
    d.follow links place (piece :: rest) = d.follow links (place ++ [piece]) rest := by
  obtain ⟨hempty, hup⟩ := Path.component?_eq_name_iff.1 hpiece
  refine follow_of_descend ?_
  cases x with
  | link target => exact absurd rfl (hx target)
  | _ => simp only [descend.eq_2, h, if_neg hempty, if_neg hup, hname]

section Link

variable (hname : entries.lookup piece = some (.link target))
include hname

theorem descend_link : d.descend place (piece :: rest) = .link place target rest := by
  obtain ⟨hempty, hup⟩ := Path.component?_eq_name_iff.1 hpiece
  simp only [descend.eq_2, h, if_neg hempty, if_neg hup, hname]

theorem follow_link_zero : d.follow 0 place (piece :: rest) = none :=
  follow_of_no_links (descend_link h hpiece hname)

/-- A link is replaced by what it points to, with one link less to follow. -/
theorem follow_link : d.follow (links + 1) place (piece :: rest) =
    d.follow links (if Path.isAbsolute target then [] else place) (Path.pieces target ++ rest) :=
  follow_of_link (descend_link h hpiece hname)

end Link

end Directory

/-- **A lookup answers the place that the pieces lead to**, and nothing where they lead nowhere. -/
theorem follow_eq_some_iff :
    d.follow links place pieces = some last ↔ d.Leads links place pieces last := by
  constructor
  · -- Each link is paid for, so it does no harm that the pieces of its target are added.
    induction links using Nat.strongRecOn generalizing place pieces with
    | _ links ihLinks =>
      induction pieces generalizing place with
      | nil =>
        intro h
        rw [follow_nil] at h
        exact Option.some.inj h ▸ .here
      | cons piece rest ih =>
        intro h
        by_cases hdir : ∃ entries, d.at? place = some (.directory entries)
        · obtain ⟨entries, hat⟩ := hdir
          rcases component?_cases piece with hpiece | hpiece | hpiece
          · rw [follow_skip hat hpiece] at h
            exact .skip hat hpiece (ih h)
          · rw [follow_up hat hpiece] at h
            exact .up hat hpiece (ih h)
          · rcases hname : entries.lookup piece with _ | _ | target | _
            · rw [follow_missing hat hpiece hname] at h
              cases h
            · rw [follow_name hat hpiece hname nofun] at h
              exact .name hat hpiece hname nofun (ih h)
            · cases links with
              | zero =>
                rw [follow_link_zero hat hpiece hname] at h
                cases h
              | succ links =>
                rw [follow_link hat hpiece hname] at h
                exact .link hat hpiece hname (ihLinks links (Nat.lt_succ_self links) h)
            · rw [follow_name hat hpiece hname nofun] at h
              exact .name hat hpiece hname nofun (ih h)
        · rw [follow_of_not_directory (not_exists.1 hdir)] at h
          cases h
  -- The other way round, every step to the place is one that the lookup makes.
  · intro h
    induction h with
    | here => exact follow_nil ..
    | skip at_place piece_eq _ ih => exact (follow_skip at_place piece_eq).trans ih
    | up at_place piece_eq _ ih => exact (follow_up at_place piece_eq).trans ih
    | name at_place piece_eq entry no_link _ ih =>
      exact (follow_name at_place piece_eq entry no_link).trans ih
    | link at_place piece_eq entry _ ih => exact (follow_link at_place piece_eq entry).trans ih

/-! ## Places -/

theorem named_of_component? (h : component? piece = some (.name piece))
    (hslash : '/' ∉ piece.toList) : Named piece := by
  obtain ⟨hcounts, hup⟩ := Path.component?_eq_name_iff.1 h
  exact ⟨⟨fun hempty => hcounts (.inl hempty), fun hhere => hcounts (.inr hhere), hslash⟩, hup⟩

theorem Named.component? {name : String} (h : Named name) :
    component? name = some (.name name) := by
  rw [Path.component?_of_counts h.1, Path.stepOf, if_neg h.2]

/-- The place that is reached is made of names, since the texts of links are taken apart like paths.
-/
theorem Leads.named (h : d.Leads links place pieces last) (hplace : ∀ name ∈ place, Named name)
    (hpieces : ∀ piece ∈ pieces, '/' ∉ piece.toList) : ∀ name ∈ last, Named name := by
  induction h with
  | here => exact hplace
  | skip _ _ _ ih => exact ih hplace fun p hp => hpieces p (List.mem_cons_of_mem _ hp)
  | up _ _ _ ih =>
    exact ih (fun n hn => hplace n (List.dropLast_subset _ hn))
      fun p hp => hpieces p (List.mem_cons_of_mem _ hp)
  | name _ piece_eq _ _ _ ih =>
    refine ih (fun n hn => ?_) fun p hp => hpieces p (List.mem_cons_of_mem _ hp)
    rcases List.mem_append.1 hn with hn | hn
    · exact hplace n hn
    · obtain rfl := List.mem_singleton.1 hn
      exact named_of_component? piece_eq (hpieces _ List.mem_cons_self)
  | link _ _ _ _ ih =>
    refine ih (fun n hn => ?_) fun p hp => ?_
    · split at hn
      · exact absurd hn List.not_mem_nil
      · exact hplace n hn
    · rcases List.mem_append.1 hp with hp | hp
      · exact Path.slash_of_mem_pieces hp
      · exact hpieces p (List.mem_cons_of_mem _ hp)

/-- A path is looked up from a directory. -/
theorem Leads.directory (h : d.Leads links place pieces last) (hne : pieces ≠ []) :
    ∃ entries, d.at? place = some (.directory entries) := by
  cases h with
  | here => exact absurd rfl hne
  | skip at_place | up at_place | name at_place | link at_place => exact ⟨_, at_place⟩

/-- What stands at a place is found through what stands above it. -/
theorem at?_append (d : FileTree) (place below : Place) :
    d.at? (place ++ below) = (d.at? place).bind (·.at? below) := by
  induction place generalizing d with
  | nil => rfl
  | cons name place ih =>
    rw [List.cons_append, at?, at?]
    cases d.child? name with
    | none => rfl
    | some x => exact ih x

theorem at?_link (place : Place) :
    (FileTree.link target).at? place = some x → x = .link target := by
  cases place with
  | nil => exact fun h => (Option.some.inj h).symm
  | cons name place => nofun

/-- Names on the way to something lead there, unless it is a link. -/
theorem leads_names {names : List String} (hnames : ∀ name ∈ names, Named name)
    (h : d.at? (place ++ names) = some x) (hx : ∀ target, x ≠ .link target) :
    d.Leads links place names (place ++ names) := by
  induction names generalizing place with
  | nil => exact (List.append_nil place).symm ▸ .here
  | cons name names ih =>
    have hsplit : place ++ name :: names = place ++ [name] ++ names := by simp
    rw [at?_append] at h
    obtain ⟨y, hy, h⟩ := Option.bind_eq_some_iff.1 h
    match y with
    | .file _ | .link _ => cases h
    | .directory entries =>
      have hstep : (FileTree.directory entries).at? (name :: names) =
          (entries.lookup name).bind (·.at? names) := by
        rw [at?, child?]
        cases entries.lookup name <;> rfl
      rw [hstep] at h
      obtain ⟨z, hz, h⟩ := Option.bind_eq_some_iff.1 h
      have hlink : ∀ target, z ≠ .link target := by
        rintro target rfl
        exact hx target (at?_link names h)
      have hbelow : d.at? (place ++ [name] ++ names) = some x := by
        rw [← hsplit, at?_append, hy, Option.bind_some, hstep, hz, Option.bind_some, h]
      rw [hsplit]
      exact .name hy (Named.component? (hnames name List.mem_cons_self)) hz hlink
        (ih (fun n hn => hnames n (List.mem_cons_of_mem _ hn)) hbelow)

/-- No link is on the way to a file. -/
theorem at?_take_ne_link {content : ByteArray} (h : d.at? place = some (.file content)) (n : Nat)
    (target : String) : d.at? (place.take n) ≠ some (.link target) := by
  intro hlink
  rw [← List.take_append_drop n place, at?_append, hlink, Option.bind_some] at h
  cases at?_link _ h

end FileTree

namespace Disk

variable {d : Disk} {p : String} {place place' : Place} {x : FileTree}

/-- A path leads to a place just if it is not empty and its pieces lead there from the root. -/
theorem find?_eq_some_iff : d.find? p = some place ↔
    p ≠ "" ∧ Path.isAbsolute (Path.join d.current p) = true ∧
      d.tree.Leads linkLimit [] (Path.pieces (Path.join d.current p)) place := by
  rw [find?, ← FileTree.follow_eq_some_iff]
  split
  · rename_i h
    exact ⟨fun hfollow => ⟨h.1, h.2, hfollow⟩, fun h => h.2.2⟩
  · rename_i h
    exact iff_of_false (by simp) fun hall => h ⟨hall.1, hall.2.1⟩

/-- A file is what lies at the place that a path leads to. -/
theorem isFile_iff : d.isFile p = true ↔
    ∃ place content, d.find? p = some place ∧ d.tree.at? place = some (.file content) := by
  unfold isFile open?
  constructor
  · intro h
    split at h
    · rename_i content hopen
      obtain ⟨place, hfind, hat⟩ := Option.bind_eq_some_iff.1 hopen
      exact ⟨place, content, hfind, hat⟩
    · cases h
  · rintro ⟨place, content, hfind, hat⟩
    rw [hfind, Option.bind_some, hat]

theorem isDirectory_iff : d.isDirectory p = true ↔
    ∃ place entries, d.find? p = some place ∧ d.tree.at? place = some (.directory entries) := by
  unfold isDirectory open?
  constructor
  · intro h
    split at h
    · rename_i entries hopen
      obtain ⟨place, hfind, hat⟩ := Option.bind_eq_some_iff.1 hopen
      exact ⟨place, entries, hfind, hat⟩
    · cases h
  · rintro ⟨place, entries, hfind, hat⟩
    rw [hfind, Option.bind_some, hat]

/-- The canonical path is the path of the place. -/
theorem canonical?_of_find? (h : d.find? p = some place) (hx : d.tree.at? place = some x) :
    d.canonical? p = some (pathOf place) := by
  rw [canonical?, open?, h, Option.bind_some, hx]
  rfl

/-- A place is made of names, without `.` and `..`. -/
theorem named_of_find? (h : d.find? p = some place) : ∀ name ∈ place, Named name := by
  obtain ⟨-, -, hleads⟩ := find?_eq_some_iff.1 h
  exact hleads.named nofun fun _ => Path.slash_of_mem_pieces

/-! ## The path of a place -/

theorem isAbsolute_pathOf (place : Place) : Path.isAbsolute (pathOf place) = true := by
  simp [Path.isAbsolute, pathOf]

theorem pieces_pathOf (hplace : ∀ name ∈ place, Named name) (hne : place ≠ []) :
    Path.pieces (pathOf place) = "" :: place := by
  have hslash : Path.pieces (pathOf place) = "" :: Path.pieces ("/".intercalate place) := by
    simp [pathOf, Path.pieces, Path.splitSlash]
  rw [hslash, Path.pieces_intercalate hne fun name hname => (hplace name hname).1.slash]

/-- The path of a place has its names for components. -/
theorem components_pathOf (hplace : ∀ name ∈ place, Named name) :
    Path.components (pathOf place) = .root :: place.map .name := by
  have hcounts : ∀ name ∈ place, Path.Counts name := fun name hname => (hplace name hname).1
  have hsteps : place.map Path.stepOf = place.map .name :=
    List.map_congr_left fun name hname => if_neg (hplace name hname).2
  have hcomponents := (Path.components_intercalate hcounts).trans hsteps
  have hhere : Path.Component.here ∉ Path.components ("/".intercalate place) := by
    rw [hcomponents]
    simp
  rw [pathOf, Path.components_slash (Path.isAbsolute_intercalate hcounts) hhere, hcomponents]

/-- Places are told apart by their paths. -/
theorem same_pathOf_iff (hplace : ∀ name ∈ place, Named name)
    (hplace' : ∀ name ∈ place', Named name) :
    Path.same (pathOf place) (pathOf place') = true ↔ place = place' := by
  rw [Path.same, beq_iff_eq, components_pathOf hplace, components_pathOf hplace',
    List.cons_inj_right]
  exact (List.map_injective_iff.2 fun _ _ => Path.Component.name.inj).eq_iff

/-- **The path of a place that was reached leads there again**, and to no other place. -/
theorem find?_pathOf (h : d.find? p = some place) (hx : d.tree.at? place = some x)
    (hlink : ∀ target, x ≠ .link target) : d.find? (pathOf place) = some place := by
  have habs := isAbsolute_pathOf place
  have hplace := named_of_find? h
  have hne : pathOf place ≠ "" := by
    intro hempty
    rw [hempty] at habs
    exact absurd habs (by decide)
  obtain ⟨-, -, hleads⟩ := find?_eq_some_iff.1 h
  refine find?_eq_some_iff.2 ⟨hne, ?_, ?_⟩
  · rw [Path.join_of_isAbsolute habs]
    exact habs
  · rw [Path.join_of_isAbsolute habs]
    obtain ⟨entries, hroot⟩ := hleads.directory (Path.pieces_ne_nil _)
    by_cases hnil : place = []
    · subst hnil
      exact .skip hroot rfl (.skip hroot rfl .here)
    · rw [pieces_pathOf hplace hnil]
      exact .skip hroot rfl (FileTree.leads_names hplace hx hlink)

end Disk

end TypeReify
