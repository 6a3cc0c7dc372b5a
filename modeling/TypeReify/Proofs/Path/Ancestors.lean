import TypeReify.Proofs.Path.Normal
import Mathlib.Data.List.DropRight
import Mathlib.Data.List.Infix

/-!
# What lies above a path

The parent of a path is the path without its last step, and what lies above a path are the
beginnings of its steps, read off the text: a `..` is dropped like a name. Paths that differ in
slashes and dots only have such paths above them again.

The ancestors are those of the path type of the standard library, as `resolve_module_name` and
`resolve_bare_specifier` go through them.

Results:
* `pieces_join`: joining puts the pieces of one path behind those of another.
* `isParent_parent?`: the parent has all steps but the last.
* `mem_ancestors`: what lies above a path are the beginnings of its steps, up to the limit.
* `sameSteps_of_key`: paths with one key that climb nowhere differ in slashes and dots only.
-/

namespace TypeReify.Path

/-- The steps of a path behind its beginning. -/
def steps (p : String) : List Component := (pieces p).filterMap component?

/-- What stands in front of the steps: the root or a `.`, if anything. -/
def lead (p : String) : List Component :=
  if isAbsolute p then [.root] else if (pieces p).head? = some "." then [.here] else []

/-- The pieces that another path is put behind. -/
def stem (p : String) : List String :=
  if p = "" then [] else if p.toList.getLast? = some '/' then (pieces p).dropLast else pieces p

variable {p q base : String} {ps : List String}

theorem components_eq_steps (p : String) : components p = lead p ++ steps p := rfl

/-- The name of a file is the last step of its path, if that is a name. -/
theorem fileName?_eq_some_iff {text : String} :
    fileName? p = some text ↔ (steps p).getLast? = some (.name text) := by
  have hlead : (lead p).getLast? ≠ some (.name text) := by
    unfold lead
    split
    · simp
    · split <;> simp
  have hlast :
      (components p).getLast? = some (.name text) ↔ (steps p).getLast? = some (.name text) := by
    rw [components_eq_steps, List.getLast?_append]
    cases (steps p).getLast? with
    | none => simpa using hlead
    | some step => rfl
  rw [← hlast, fileName?]
  split
  · rename_i other h
    rw [h]
    simp
  · rename_i h
    exact iff_of_false nofun (h text)

/-! ## Joined paths -/

/-- Splitting undoes joining with a slash. -/
theorem splitSlash_append (cs ds : List Char) :
    splitSlash (cs ++ '/' :: ds) = splitSlash cs ++ splitSlash ds := by
  induction cs with
  | nil => rfl
  | cons c cs ih =>
    rw [List.cons_append, splitSlash, ih, splitSlash]
    split
    · rfl
    · have hne : splitSlash cs ≠ [] := by
        rw [splitSlash_eq]
        exact List.splitOn_ne_nil _ _
      cases hs : splitSlash cs with
      | nil => exact absurd hs hne
      | cons piece pieces => rfl

theorem pieces_slash (p q : String) : pieces (p ++ "/" ++ q) = pieces p ++ pieces q := by
  simp [pieces, splitSlash_append]

theorem eq_slash_of_getLast? (h : p.toList.getLast? = some '/') : ∃ front, p = front ++ "/" := by
  obtain ⟨cs, hcs⟩ := List.getLast?_eq_some_iff.1 h
  exact ⟨String.ofList cs, String.toList_injective (by simp [hcs])⟩

theorem pieces_empty : pieces "" = [""] := by decide

/-- Joining puts the pieces of one path behind those of another, without the empty one that a slash
at the end leaves. -/
theorem pieces_join (hq : isAbsolute q = false) (base : String) :
    pieces (join base q) = stem base ++ pieces q := by
  unfold join stem
  rw [if_neg (by simp [hq])]
  split
  · rfl
  · split
    · rename_i hslash
      obtain ⟨front, rfl⟩ := eq_slash_of_getLast? hslash
      have hfront : pieces (front ++ "/") = pieces front ++ [""] := by
        rw [← String.append_empty (s := front ++ "/"), pieces_slash, pieces_empty]
      rw [pieces_slash, hfront, List.dropLast_concat]
    · exact pieces_slash base q

/-- The pieces between slashes that are empty or `.` are no steps. -/
theorem filterMap_stem (p : String) : (stem p).filterMap component? = steps p := by
  unfold stem steps
  split
  · rename_i hp
    rw [hp, pieces_empty]
    rfl
  · split
    · rename_i hslash
      obtain ⟨front, rfl⟩ := eq_slash_of_getLast? hslash
      have hfront : pieces (front ++ "/") = pieces front ++ [""] := by
        rw [← String.append_empty (s := front ++ "/"), pieces_slash, pieces_empty]
      have hempty : [""].filterMap component? = [] := rfl
      rw [hfront, List.dropLast_concat, List.filterMap_append, hempty, List.append_nil]
    · rfl

/-- A joined path is absolute when either part is. -/
theorem isAbsolute_join (base q : String) :
    isAbsolute (join base q) = (isAbsolute q || isAbsolute base) := by
  cases hq : isAbsolute q with
  | true => rw [join_of_isAbsolute hq, hq, Bool.true_or]
  | false =>
    unfold join
    rw [if_neg (by simp [hq]), Bool.false_or]
    by_cases hbase : base = ""
    · rw [if_pos hbase, hq, hbase]
      rfl
    · have hne : base.toList ≠ [] := fun h => hbase (String.toList_eq_nil_iff.1 h)
      obtain ⟨c, cs, hcs⟩ := List.exists_cons_of_ne_nil hne
      rw [if_neg hbase]
      split <;> simp [isAbsolute, hcs]

/-! ## The parent -/

theorem trimPieces_concat (ps : List String) (piece : String) : trimPieces (ps ++ [piece]) =
    if component? piece = none then trimPieces ps else ps ++ [piece] := by
  simpa [trimPieces, List.rdropWhile, component?_eq_none_iff] using
    List.rdropWhile_concat (fun piece : String => decide (piece = "" ∨ piece = ".")) ps piece

theorem prefix_of_trimPieces (ps : List String) : trimPieces ps <+: ps :=
  List.rdropWhile_prefix _ _

theorem filterMap_trimPieces (ps : List String) :
    (trimPieces ps).filterMap component? = ps.filterMap component? := by
  induction ps using List.reverseRecOn with
  | nil => rfl
  | append_singleton ps piece ih =>
    rw [trimPieces_concat]
    split
    · rename_i hpiece
      simp [ih, hpiece]
    · rfl

/-- What is not trimmed ends with a step. -/
theorem trimPieces_cases (ps : List String) : trimPieces ps = [] ∨
    ∃ front piece step, trimPieces ps = front ++ [piece] ∧ component? piece = some step := by
  induction ps using List.reverseRecOn with
  | nil => exact .inl rfl
  | append_singleton ps piece ih =>
    rw [trimPieces_concat]
    split
    · exact ih
    · rename_i hpiece
      obtain ⟨step, hstep⟩ := Option.ne_none_iff_exists'.1 hpiece
      exact .inr ⟨ps, piece, step, rfl, hstep⟩

theorem trimPieces_eq_nil_iff : trimPieces ps = [] ↔ ps.filterMap component? = [] := by
  rw [← filterMap_trimPieces]
  rcases trimPieces_cases ps with h | ⟨front, piece, step, h, hstep⟩
  · simp [h]
  · simp [h, hstep]

/-- The pieces without the last one that means something. -/
def piecesAbove (ps : List String) : List String := trimPieces (trimPieces ps).dropLast

/-- The last piece that means something is dropped, with what stands behind it. -/
theorem filterMap_piecesAbove (ps : List String) :
    (piecesAbove ps).filterMap component? = (ps.filterMap component?).dropLast := by
  rw [piecesAbove, filterMap_trimPieces, ← filterMap_trimPieces ps]
  rcases trimPieces_cases ps with h | ⟨front, piece, step, h, hstep⟩
  · rw [h]
    rfl
  · have hlast : [piece].filterMap component? = [step] := by simp [hstep]
    rw [h, List.dropLast_concat, List.filterMap_append, hlast, List.dropLast_concat]

/-- The pieces of a parent are the first pieces of the path. -/
theorem prefix_of_piecesAbove (ps : List String) : piecesAbove ps <+: ps :=
  (prefix_of_trimPieces _).trans ((List.dropLast_prefix _).trans (prefix_of_trimPieces ps))

/-- A path is absolute just if the empty piece stands before its first slash. -/
theorem isAbsolute_iff_pieces :
    isAbsolute p = true ↔ ∃ rest, rest ≠ [] ∧ pieces p = "" :: rest := by
  unfold isAbsolute pieces
  cases p.toList with
  | nil => simp [splitSlash]
  | cons c cs =>
    by_cases hc : c = '/'
    · have hne : splitSlash cs ≠ [] := by
        rw [splitSlash_eq]
        exact List.splitOn_ne_nil _ _
      simp [splitSlash, hc, hne]
    · rw [splitSlash, if_neg hc]
      cases splitSlash cs <;> simp [hc, String.ofList_eq_empty_iff]

section Text

variable (h : ∀ piece ∈ ps, piece ∈ pieces p)
include h

theorem pieces_intercalate_of_mem (hne : ps ≠ []) : pieces ("/".intercalate ps) = ps :=
  pieces_intercalate hne fun piece hpiece => slash_of_mem_pieces (h piece hpiece)

theorem steps_intercalate : steps ("/".intercalate ps) = ps.filterMap component? := by
  by_cases hne : ps = []
  · subst hne
    rfl
  · rw [steps, pieces_intercalate_of_mem h hne]

theorem isAbsolute_of_head (hempty : ps.head? ≠ some "") :
    isAbsolute ("/".intercalate ps) = false := by
  by_cases hne : ps = []
  · subst hne
    rfl
  · rw [← Bool.not_eq_true, isAbsolute_iff_pieces, pieces_intercalate_of_mem h hne]
    rintro ⟨rest, -, rfl⟩
    exact hempty rfl

end Text

/-- What a parent is: it has all steps but the last. Only the root and the empty path have none, and
the parent of a `.` is the empty path. -/
def IsParent (p : String) : Option String → Prop
  | none => steps p = []
  | some q => isAbsolute q = isAbsolute p ∧ steps q = (steps p).dropLast ∧ (steps p = [] → q = "")

section Branches

variable {first : String} {rest : List String}

theorem mem_pieces_of_piecesAbove (hp : pieces p = first :: rest) :
    ∀ piece ∈ piecesAbove rest, piece ∈ pieces p :=
  fun _ h => hp ▸ List.mem_cons_of_mem first ((prefix_of_piecesAbove rest).subset h)

/-- The parent of an absolute path is absolute, and only the root has none. -/
theorem isParent_of_root (hp : pieces p = "" :: rest) (habs : isAbsolute p = true) :
    IsParent p (parent? p) := by
  have hsteps : steps p = rest.filterMap component? := by
    rw [steps, hp]
    rfl
  simp only [parent?, hp, habs, if_true]
  split
  · rename_i htrim
    exact hsteps.trans (trimPieces_eq_nil_iff.1 htrim)
  · rename_i htrim
    have hslash : steps ("/" ++ "/".intercalate (piecesAbove rest)) =
        steps ("/".intercalate (piecesAbove rest)) := by
      rw [steps, ← String.empty_append (s := "/"), pieces_slash, pieces_empty]
      rfl
    refine ⟨habs.symm ▸ by simp [isAbsolute], ?_, fun hnil => ?_⟩
    · rw [hsteps, ← filterMap_piecesAbove, ← steps_intercalate (mem_pieces_of_piecesAbove hp)]
      exact hslash
    · exact absurd (trimPieces_eq_nil_iff.2 (hsteps.symm.trans hnil)) htrim

variable (habs : isAbsolute p = false)
include habs

/-- The parent of a path that begins with `.` does so too, unless nothing else is in it. -/
theorem isParent_of_here (hp : pieces p = "." :: rest) : IsParent p (parent? p) := by
  have hsteps : steps p = rest.filterMap component? := by
    rw [steps, hp]
    rfl
  simp only [parent?, hp, habs, Bool.false_eq_true, if_false, if_true]
  split
  · rename_i htrim
    refine ⟨habs.symm ▸ rfl, ?_, fun _ => rfl⟩
    rw [hsteps, trimPieces_eq_nil_iff.1 htrim]
    rfl
  · rename_i htrim
    have hmem : ∀ piece ∈ "." :: piecesAbove rest, piece ∈ pieces p :=
      List.forall_mem_cons.2 ⟨hp ▸ List.mem_cons_self, mem_pieces_of_piecesAbove hp⟩
    refine ⟨(isAbsolute_of_head hmem (by simp)).trans habs.symm, ?_, fun hnil => ?_⟩
    · rw [hsteps, ← filterMap_piecesAbove]
      exact steps_intercalate hmem
    · exact absurd (trimPieces_eq_nil_iff.2 (hsteps.symm.trans hnil)) htrim

/-- Other paths have what stands before the last step as their parent. -/
theorem isParent_of_name (hp : pieces p = first :: rest) (hhere : first ≠ ".") :
    IsParent p (parent? p) := by
  have hsteps : steps p = (first :: rest).filterMap component? := by rw [steps, hp]
  simp only [parent?, hp, habs, Bool.false_eq_true, if_false, hhere]
  split
  · rename_i htrim
    exact hsteps.trans (trimPieces_eq_nil_iff.1 htrim)
  · rename_i htrim
    have hne : steps p ≠ [] := fun hnil => htrim (trimPieces_eq_nil_iff.2 (hsteps.symm.trans hnil))
    have hempty : first ≠ "" := by
      rintro rfl
      by_cases hrest : rest = []
      · exact hne (by rw [hsteps, hrest]; rfl)
      · exact absurd (isAbsolute_iff_pieces.2 ⟨rest, hrest, hp⟩) (by simp [habs])
    have hhead : (piecesAbove (first :: rest)).head? ≠ some "" := by
      intro h
      obtain ⟨behind, hbehind⟩ := List.head?_eq_some_iff.1 h
      obtain ⟨last, hlast⟩ := hbehind ▸ prefix_of_piecesAbove (first :: rest)
      exact hempty (List.cons.inj hlast).1.symm
    have hmem : ∀ piece ∈ piecesAbove (first :: rest), piece ∈ pieces p :=
      fun piece h => hp ▸ (prefix_of_piecesAbove (first :: rest)).subset h
    refine ⟨(isAbsolute_of_head hmem hhead).trans habs.symm, ?_, fun hnil => absurd hnil hne⟩
    rw [hsteps, ← filterMap_piecesAbove]
    exact steps_intercalate hmem

end Branches

/-- A path begins with the root, with a dot, or with something else; in each case the parent has all
steps but the last. -/
theorem isParent_parent? (p : String) : IsParent p (parent? p) := by
  obtain ⟨first, rest, hp⟩ := List.exists_cons_of_ne_nil (pieces_ne_nil p)
  by_cases habs : isAbsolute p = true
  · obtain ⟨rest', -, hroot⟩ := isAbsolute_iff_pieces.1 habs
    exact isParent_of_root hroot habs
  · rw [Bool.not_eq_true] at habs
    by_cases hhere : first = "."
    · exact isParent_of_here habs (hhere ▸ hp)
    · exact isParent_of_name habs hp hhere

theorem isParent_of_some (h : parent? p = some q) : IsParent p (some q) := h ▸ isParent_parent? p

/-- A path without parent has no steps. -/
theorem steps_of_no_parent (h : parent? p = none) : steps p = [] := by
  have hparent := isParent_parent? p
  rwa [h] at hparent

/-! ## What lies above -/

/-- What lies above a path begins as it does. -/
theorem of_mem_ancestors {limit : Nat} (h : q ∈ ancestors limit p) :
    isAbsolute q = isAbsolute p ∧ steps q <+: steps p := by
  induction limit generalizing p with
  | zero => cases h
  | succ limit ih =>
    rcases List.mem_cons.1 h with rfl | h
    · exact ⟨rfl, List.prefix_rfl⟩
    · cases hp : parent? p with
      | none =>
        rw [hp] at h
        cases h
      | some r =>
        rw [hp] at h
        obtain ⟨habs, hsteps, -⟩ := isParent_of_some hp
        obtain ⟨hqabs, hq⟩ := ih h
        exact ⟨hqabs.trans habs, hq.trans (hsteps ▸ List.dropLast_prefix _)⟩

/-- **What lies above a path**: the beginnings of its steps, as many as the limit allows. -/
theorem mem_ancestors {limit : Nat} {way : List Component} :
    (∃ q ∈ ancestors limit p, steps q = way) ↔
      way <+: steps p ∧ (steps p).length < way.length + limit := by
  induction limit generalizing p with
  | zero =>
    simp only [ancestors, List.not_mem_nil, false_and, exists_false, Nat.add_zero, false_iff]
    rintro ⟨hway, hlength⟩
    exact absurd hway.length_le (by omega)
  | succ limit ih =>
    by_cases hnil : steps p = []
    · rw [hnil, List.prefix_nil]
      constructor
      · rintro ⟨q, hq, rfl⟩
        have hq : steps q = [] := List.prefix_nil.1 (hnil ▸ (of_mem_ancestors hq).2)
        exact ⟨hq, by simp [hq]⟩
      · rintro ⟨rfl, -⟩
        exact ⟨p, List.mem_cons_self, hnil⟩
    · obtain ⟨q, hq⟩ := Option.ne_none_iff_exists'.1 (mt steps_of_no_parent hnil)
      have hway : way <+: steps p ↔ way = steps p ∨ way <+: (steps p).dropLast := by
        conv_lhs => rw [← List.dropLast_concat_getLast hnil]
        rw [List.prefix_concat_iff, List.dropLast_concat_getLast hnil]
      have hlength : (steps p).dropLast.length + 1 = (steps p).length := by
        rw [List.length_dropLast]
        exact Nat.sub_add_cancel (List.length_pos_iff.2 hnil)
      simp only [ancestors, hq, List.mem_cons, exists_eq_or_imp, ih,
        (isParent_of_some hq).2.1, hway]
      constructor
      · rintro (rfl | ⟨habove, hbound⟩)
        · exact ⟨.inl rfl, by omega⟩
        · exact ⟨.inr habove, by omega⟩
      · rintro ⟨rfl | habove, hbound⟩
        · exact .inl rfl
        · exact .inr ⟨habove, by omega⟩

/-! ## Paths with the same steps -/

/-- Paths that differ in slashes and dots only. -/
structure SameSteps (p q : String) : Prop where
  absolute_eq : isAbsolute p = isAbsolute q
  steps_eq : steps p = steps q

namespace SameSteps

variable {p' q' : String}

theorem symm (h : SameSteps p q) : SameSteps q p := ⟨h.absolute_eq.symm, h.steps_eq.symm⟩

/-- Paths with the same steps have parents with the same steps. -/
theorem of_parents (h : SameSteps p q) (hp : parent? p = some p') (hq : parent? q = some q') :
    SameSteps p' q' := by
  obtain ⟨hpabs, hpsteps, -⟩ := isParent_of_some hp
  obtain ⟨hqabs, hqsteps, -⟩ := isParent_of_some hq
  exact ⟨hpabs.trans (h.absolute_eq.trans hqabs.symm), by rw [hpsteps, hqsteps, h.steps_eq]⟩

/-- Where only one of two such paths has a parent, that is the empty path, and leads nowhere else.
-/
theorem of_parent (h : SameSteps p q) (hp : parent? p = some p') (hq : parent? q = none) :
    p' = "" ∧ SameSteps q "" := by
  obtain ⟨habs, -, hempty⟩ := isParent_of_some hp
  have hsteps := steps_of_no_parent hq
  obtain rfl := hempty (h.steps_eq.trans hsteps)
  exact ⟨rfl, h.absolute_eq.symm.trans habs.symm, hsteps⟩

/-- Files with such paths are in directories with such paths. -/
theorem directory (h : SameSteps p q) : SameSteps (directory p) (directory q) := by
  unfold Path.directory
  cases hp : parent? p with
  | none =>
    cases hq : parent? q with
    | none => exact ⟨rfl, rfl⟩
    | some q' =>
      obtain ⟨rfl, -⟩ := h.symm.of_parent hq hp
      exact ⟨rfl, rfl⟩
  | some p' =>
    cases hq : parent? q with
    | none =>
      obtain ⟨rfl, -⟩ := h.of_parent hp hq
      exact ⟨rfl, rfl⟩
    | some q' => exact h.of_parents hp hq

end SameSteps

theorem steps_eq_map (p : String) : ∃ texts : List String, steps p = texts.map stepOf := by
  have hall (ps : List String) (h : ps ⊆ pieces p) :
      ∃ texts : List String, ps.filterMap component? = texts.map stepOf := by
    induction ps with
    | nil => exact ⟨[], rfl⟩
    | cons piece ps ih =>
      obtain ⟨texts, htexts⟩ := ih fun _ hp => h (List.mem_cons_of_mem piece hp)
      cases hstep : component? piece with
      | none => exact ⟨texts, by rw [List.filterMap_cons_none hstep, htexts]⟩
      | some step =>
        have hstepOf : step = stepOf piece := (counts_of_component? (h List.mem_cons_self) hstep).2
        exact ⟨piece :: texts, by rw [List.filterMap_cons_some hstep, htexts, hstepOf]; rfl⟩
  exact hall (pieces p) (List.Subset.refl _)

theorem root_notMem_steps (p : String) : .root ∉ steps p := by
  obtain ⟨texts, htexts⟩ := steps_eq_map p
  rw [htexts]
  intro h
  obtain ⟨text, -, htext⟩ := List.mem_map.1 h
  unfold stepOf at htext
  split at htext <;> cases htext

/-- A path that climbs nowhere has its names for its steps. -/
theorem steps_of_no_climb (h : .up ∉ components p) :
    steps p = (trail p).names.reverse.map .name := by
  obtain ⟨texts, htexts⟩ := steps_eq_map p
  have hnames : ∀ text ∈ texts, text ≠ ".." := by
    rintro text htext rfl
    have hup : Component.up ∈ steps p := htexts ▸ List.mem_map_of_mem htext
    exact h (List.mem_append_right _ hup)
  have hlead : trail p = (steps p).foldl Trail.step ⟨0, []⟩ := by
    rw [trail, components_eq_steps, List.foldl_append]
    congr 1
    unfold lead
    split
    · rfl
    · split <;> rfl
  rw [hlead, htexts, foldl_names hnames, List.append_nil, List.reverse_reverse]
  exact List.map_congr_left fun text htext => if_neg (hnames text htext)

/-- Without a climb, nothing is folded away, so the key of a path has all its steps. -/
theorem sameSteps_of_key (hp : .up ∉ components p) (hq : .up ∉ components q)
    (h : Modules.Lookup.key p = Modules.Lookup.key q) : SameSteps p q := by
  have h : normalize p = normalize q := h
  have hnames : (trail p).names = (trail q).names := by
    have htrail := congrArg trail h
    rw [trail_normalize, trail_normalize, Trail.mk.injEq] at htrail
    exact htrail.2
  exact ⟨by rw [← isAbsolute_normalize p, h, isAbsolute_normalize],
    by rw [steps_of_no_climb hp, steps_of_no_climb hq, hnames]⟩

end TypeReify.Path
