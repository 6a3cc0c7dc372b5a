import TypeReify.Proofs.Marker.Calls
import TypeReify.Proofs.Marker.Kept
import Mathlib.Logic.Function.Iterate

/-!
# Rewriting again

A program knows the nodes that were there when it was checked, and no others. So of a rewritten file
it takes for marker calls at most nodes of the old tree, and of those it has replaced every one it
came to. No import of the markers is left either, so a second pass finds nothing to do.

This is about `transform_source_file` run twice with one `NodeRewriter`: its oracle answers by node
index, and the nodes that lowering made have indices that were never walked.

Results:
* `transform_eq_self`: where no marker call and no import of the markers stands, nothing changes.
* `importsMarkers_transform`: a rewrite leaves no import of the markers.
* `markerOf?_transform`: nor does it leave a call that it takes for a marker call.
* `Stands.exists_transform`: what stands in a file has left its image in the rewritten file.
* `transform_fixed`: what is rewritten stays as it is.
-/

namespace TypeReify.Reifier

open Check Syntax Syntax.Arena

variable (r : Reifier) {f : SourceFile}

/-! ## Files in which nothing is rewritten -/

/-- Below `root` the pass finds no marker call, and below the top no import of the markers. -/
structure Done (f : SourceFile) (root : NodeId) : Prop where
  noMarker : ∀ n, Reaches f.arena root n → NoMarker r f.fileName f.arena n
  noImport : ∀ k n, Reaches f.arena root k → n ∈ f.arena.childrenOf (some k) →
    r.importsMarkers f.arena f.fileName (some n) = false

variable {r}

/-- Where the pass finds nothing it changes nothing. At the top an import stays anyway. -/
theorem transform_eq_self (h : ∀ root, f.root = some root → Done r f root) : r.transform f = f := by
  have hwalk {root : NodeId} (hroot : f.root = some root) (levels : Nat) : rebuild
      (walk (r.rewrite f.fileName) levels) (some root) f.arena = (some root, f.arena) := by
    have hdone := h root hroot
    refine rebuild_eq_self fun hd p hp c hc => ?_
    refine walk_eq_self (S := fun c => ∀ n, c = some n →
      ∃ k, Reaches f.arena root k ∧ n ∈ f.arena.childrenOf (some k)) ?_ ?_ levels c ?_
    · rintro c hd' q hc hq _ hmem n rfl
      cases c with
      | none => cases hq
      | some m =>
        obtain ⟨k, hk, hm⟩ := hc m rfl
        exact ⟨m, hk.tail hm, (mem_childrenOf hq).2 hmem⟩
    · intro c hc
      cases c with
      | none =>
        have hkind (a : Arena) : a.kind? none = none := by simp [Arena.kind?, header?]
        exact rewrite_of_kind? (by simp [hkind]) (by simp [hkind])
      | some n =>
        obtain ⟨k, hk, hn⟩ := hc n rfl
        exact rewrite_of_none (hdone.noImport k n hk hn) (hdone.noMarker n (hk.tail hn))
    · rintro n rfl
      exact ⟨root, .refl, (mem_childrenOf hp).2 hc⟩
  have hrun : walkRoot (m := Build) (r.rewrite f.fileName) f.arena.levels f.root f.arena =
      (f.root, f.arena) := by
    cases hroot : f.root with
    | none =>
      have hkeep : r.rewrite f.fileName none f.arena = (.keep, f.arena) :=
        rewrite_of_kind? (by simp [Arena.kind?, header?]) (by simp [Arena.kind?, header?])
      simp only [walkRoot, bind, StateT.bind, hkeep, rebuild_none]
    | some root =>
      cases hi : r.importsMarkers f.arena f.fileName (some root) with
      | true => simp only [walkRoot, bind, StateT.bind, rewrite_of_import hi, hwalk hroot]
      | false =>
        have hkeep := rewrite_of_none hi ((h root hroot).noMarker root .refl)
        simp only [walkRoot, bind, StateT.bind, hkeep, hwalk hroot]
  rw [transform, hrun]

/-- Outside the arena nothing lies below a node. -/
theorem eq_of_reaches_of_le {a : Arena} {y n : NodeId} (hy : a.size ≤ y) (h : Reaches a y n) :
    n = y := by
  induction h with
  | refl => rfl
  | tail _ hc ih =>
    rw [ih, childrenOf_of_le hy] at hc
    exact absurd hc List.not_mem_nil

theorem transform_of_le {root : NodeId} (hroot : f.root = some root) (h : f.arena.size ≤ root) :
    r.transform f = f := by
  have hheader : f.arena.header? (some root) = none := Array.getElem?_eq_none h
  refine transform_eq_self fun root' hroot' => ?_
  obtain rfl := Option.some.inj (hroot.symm.trans hroot')
  constructor
  · intro n hn
    rw [eq_of_reaches_of_le h hn]
    exact markerOf?_of_kind? (by simp [Arena.kind?, hheader])
  · intro k n hk hn
    rw [eq_of_reaches_of_le h hk, childrenOf_of_le h] at hn
    exact absurd hn List.not_mem_nil

/-! ## Files that are rewritten -/

theorem settled_of_reaches {old a : Arena} {P : NodeId → Prop} {y n : NodeId}
    (h : Settled old P a (some y)) (hn : Reaches a y n) : Settled old P a (some n) := by
  induction hn with
  | refl => exact h
  | tail _ hc ih => exact ih.child hc

section Rewritten

variable (r) (ha : f.arena.WellFormed)
include ha

/-- A rewrite appends to the arena. -/
theorem transform_appends : Appends f.arena f.arena (r.transform f).arena := by
  cases hroot : f.root with
  | none =>
    rw [transform_eq_self fun root hsome =>
      absurd (hroot.symm.trans hsome).symm (Option.some_ne_none root)]
    exact refl f.arena
  | some root =>
    rcases Nat.lt_or_ge root f.arena.size with hlt | hle
    · exact (transform_yields r ha hroot hlt).le
    · rw [transform_of_le hroot hle]
      exact refl f.arena

variable {r} in
/-- What stands in a file has left its image in the rewritten file. -/
theorem Stands.exists_transform {root s : NodeId} (hroot : f.root = some root)
    (hsource : f.arena.kind? f.root = some (.form .sourceFile))
    (hs : r.Stands f.fileName f.arena root s) {t : Tree}
    (ht : r.image f.fileName f.arena (some s) = some (some t)) :
    ∃ top y, (r.transform f).root = some top ∧ Reaches (r.transform f).arena top y ∧
      y < (r.transform f).arena.size ∧ (r.transform f).arena.tree (some y) = some t := by
  have hb := (transform_appends r ha).wellFormed ha
  obtain ⟨u, hu⟩ := exists_top r ha hsource
  have himage := image_top r ha hsource
  obtain ⟨top, htop⟩ : ∃ top, (r.transform f).root = some top := by
    refine Option.ne_none_iff_exists'.1 fun hnone => ?_
    rw [hnone, tree_none] at hu
    exact absurd hu.symm (Option.some_ne_none u)
  rw [htop] at hu himage
  rw [hroot] at himage
  have htopsize : top < (r.transform f).arena.size := by
    rw [tree_eq hb] at hu
    obtain ⟨_, hh, -⟩ := Option.map_eq_some_iff.1 hu
    exact lt_of_header? hh
  obtain ⟨y, hy, hsize, htree⟩ := hs.exists_reaches ha hb htopsize (by rw [himage]; rfl) ht
  exact ⟨top, y, htop, hy, hsize, htree⟩

variable {root' : NodeId} (hroot' : (r.transform f).root = some root')
include hroot'

/-- The new root goes back to the old one, or is one of a literal, or there is none. Either way, no
old node below it was taken for a marker call. -/
theorem transform_root : ((∃ root, f.root = some root ∧
      Kept r f.fileName f.arena (r.transform f).arena root root') ∨
        Tree.Inert ((r.transform f).arena.tree (some root'))) ∧
    ∀ n, Reaches (r.transform f).arena root' n → n < f.arena.size →
      NoMarker r f.fileName f.arena n := by
  cases hroot : f.root with
  | none =>
    rw [transform_eq_self fun root hsome =>
      absurd (hroot.symm.trans hsome).symm (Option.some_ne_none root)] at hroot'
    exact absurd (hroot.symm.trans hroot').symm (Option.some_ne_none root')
  | some root =>
    rcases Nat.lt_or_ge root f.arena.size with hlt | hle
    · have hyields := (transform_yields r ha hroot hlt).post
      have hsettled : Settled f.arena (NoMarker r f.fileName f.arena) (r.transform f).arena
          (some root') := hroot' ▸ hyields.1
      have htree : (r.transform f).arena.tree (some root') =
          rootImage r f.fileName f.arena root := hroot' ▸ hyields.2
      refine ⟨?_, fun n hn => (settled_of_reaches hsettled hn).of_lt⟩
      rw [htree, rootImage]
      cases hm : r.markerOf? f.arena f.fileName (some root) with
      | some m => exact .inr (Reified.inert_tree _)
      | none =>
        obtain ⟨h, hh⟩ := header?_of_lt hlt
        refine .inl ⟨root, rfl, hm, h, hh, ?_⟩
        rw [htree, rootImage, hm, hh]
        rfl
    · rw [transform_of_le hroot hle] at hroot' ⊢
      obtain rfl := Option.some.inj (hroot.symm.trans hroot')
      refine ⟨.inr ?_, fun n hn hlt => ?_⟩
      · rw [tree, readTree_of_le _ _ hle]
        exact .none
      · rw [eq_of_reaches_of_le hle hn] at hlt
        exact absurd hlt (Nat.not_lt.2 hle)

/-- **A rewrite leaves no import of the markers.** -/
theorem importsMarkers_transform {k n : NodeId} (hk : Reaches (r.transform f).arena root' k)
    (hn : n ∈ (r.transform f).arena.childrenOf (some k)) :
    r.importsMarkers (r.transform f).arena f.fileName (some n) = false := by
  have hb := (transform_appends r ha).wellFormed ha
  rcases (transform_root r ha hroot').1 with ⟨root, -, hkept⟩ | hinert
  · exact importsMarkers_child ha hb hkept hk hn
  · exact importsMarkers_of_kind? (kind?_of_inert hb (inert_of_reaches hb (hk.tail hn) hinert)).2

end Rewritten

/-! ## The same program again -/

/-- Which imports are those of the markers does not depend on the program. -/
theorem importsMarkers_ofSettings (o o' : Oracle) (disk : Disk) (settings : Settings) (a : Arena)
    (fileName : String) (n : Ref) : (ofSettings o disk settings).importsMarkers a fileName n =
      (ofSettings o' disk settings).importsMarkers a fileName n := rfl

section Program

variable {files : List SourceFile} (disk : Disk) (settings : Settings) (options : CheckOptions)
  (h : (files.map fileKey).Nodup) (hf : f ∈ files) (ha : f.arena.WellFormed)
include h hf ha

/-- A program takes no node for a marker call that was not there when it was checked. -/
theorem markerOf?_of_le {n : NodeId} (hn : f.arena.size ≤ n) (b : Arena) :
    (ofSettings (Program.ofFiles options files).oracle disk settings).markerOf? b f.fileName
      (some n) = none := by
  refine Option.eq_none_iff_forall_ne_some.2 fun m hm => ?_
  obtain ⟨_, -, _, _, _, _, _, _, _, _, _, -, hc, -⟩ :=
    callsMarker_of_markerOf? disk settings options h hf ha hm
  exact Nat.not_lt.2 hn (lt_of_content? hc)

/-- In the rewritten tree it takes nothing for one. -/
theorem markerOf?_transform {root' n : NodeId} :
    let r := ofSettings (Program.ofFiles options files).oracle disk settings
    (r.transform f).root = some root' → Reaches (r.transform f).arena root' n →
      NoMarker r f.fileName (r.transform f).arena n := by
  intro r hroot' hn
  rcases Nat.lt_or_ge n f.arena.size with hlt | hle
  · have hold := (transform_root r ha hroot').2 n hn hlt
    have hext := (transform_appends r ha).toExtends
    exact (markerOf?_of_extends r f.fileName hext (has_some.2 hlt)).trans hold
  · exact markerOf?_of_le disk settings options h hf ha hle _

end Program

/-- **What is rewritten stays as it is.** Every node below the new root is kept, and so is the root
itself unless it is an import, which no file has for a root; any further pass changes neither the
root nor the arena. -/
theorem transform_fixed {files : List SourceFile} (disk : Disk) (settings : Settings)
    (options : CheckOptions) (h : (files.map fileKey).Nodup) (hf : f ∈ files)
    (ha : f.arena.WellFormed) :
    let r := ofSettings (Program.ofFiles options files).oracle disk settings
    (f.arena.kind? f.root ≠ some (.form .importDeclaration) →
      ∀ root' n, (r.transform f).root = some root' → Reaches (r.transform f).arena root' n →
        r.rewrite f.fileName (some n) (r.transform f).arena = (.keep, (r.transform f).arena)) ∧
    ∀ passes, r.transform^[passes] (r.transform f) = r.transform f := by
  intro r
  have hb := (transform_appends r ha).wellFormed ha
  have hdone (root' : NodeId) (hroot' : (r.transform f).root = some root') :
      Done r (r.transform f) root' :=
    ⟨fun _ hn => markerOf?_transform disk settings options h hf ha hroot' hn,
      fun _ _ hk hn => importsMarkers_transform r ha hroot' hk hn⟩
  refine ⟨fun hkind root' n hroot' hn => ?_, fun passes => ?_⟩
  · refine rewrite_of_none ?_ ((hdone root' hroot').noMarker n hn)
    rcases hn.cases_tail with rfl | ⟨k, hk, hn⟩
    · rcases (transform_root r ha hroot').1 with ⟨root, hroot, hkept⟩ | hinert
      · refine importsMarkers_of_kind? ?_
        rw [hkept.kind? hb, ← hroot]
        exact hkind
      · exact importsMarkers_of_kind? (kind?_of_inert hb hinert).2
    · exact (hdone root' hroot').noImport k n hk hn
  · exact Function.iterate_fixed (transform_eq_self hdone) passes

theorem transform_fixed_callingFile :
    let files := [declaringFile, callingFile]
    let r := ofSettings (Program.ofFiles .default files).oracle markerDisk
      ⟨.ofDirectory "/m", .default⟩
    (files.map fileKey).Nodup ∧ callingFile ∈ files ∧ callingFile.arena.WellFormed ∧
      callingFile.arena.kind? callingFile.root ≠ some (.form .importDeclaration) ∧
      (∀ root' n, (r.transform callingFile).root = some root' →
        Reaches (r.transform callingFile).arena root' n →
          r.rewrite callingFile.fileName (some n) (r.transform callingFile).arena =
            (.keep, (r.transform callingFile).arena)) ∧
      ∀ passes, r.transform^[passes] (r.transform callingFile) = r.transform callingFile := by
  have hnodup : ([declaringFile, callingFile].map fileKey).Nodup := by decide +kernel
  have hmem : callingFile ∈ [declaringFile, callingFile] := by simp
  have ha : callingFile.arena.WellFormed := by decide
  have hkind : callingFile.arena.kind? callingFile.root ≠ some (.form .importDeclaration) := by
    decide
  have hfixed := transform_fixed markerDisk ⟨.ofDirectory "/m", .default⟩ .default hnodup hmem ha
  exact ⟨hnodup, hmem, ha, hkind, hfixed.1 hkind, hfixed.2⟩

end TypeReify.Reifier
