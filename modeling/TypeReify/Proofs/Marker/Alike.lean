import TypeReify.Proofs.Marker.Again

/-!
# Rewriting alike

Two reifiers that tell alike of the nodes of a file what becomes of them rewrite the file alike,
node by node: not only is the text the same, but the arenas are, with every literal in the same
place. They may answer as they like elsewhere. So two programs can be compared by their imports and
calls of the markers and by what these calls stand for.

What becomes of a node is what `rewrite` decides: `is_marker_import` and `is_marker_call` with the
literals of `lower_keys` and `lower_type_members`.

Results:
* `Alike.rewrite`: such a node is rewritten alike, also when other nodes have been rewritten.
* `transform_congr`: files are rewritten alike by reifiers that agree on their nodes.

Out of scope: reifiers that build different literals with the same text.
-/

namespace TypeReify

open Check Syntax Syntax.Arena

namespace Reifier

section Alike

variable {r r' : Reifier} {fileName : String} {a b : Arena}

variable (r r' fileName a) in
/-- Both reifiers tell alike what becomes of the node. -/
structure Alike (n : Ref) : Prop where
  importsMarkers : r'.importsMarkers a fileName n = r.importsMarkers a fileName n
  markerOf? : r'.markerOf? a fileName n = r.markerOf? a fileName n
  value : ∀ m, r.markerOf? a fileName n = some m →
    m.value r'.oracle fileName (typeArgument? a n) = m.value r.oracle fileName (typeArgument? a n)

/-- Then they rewrite it alike, also when other nodes have been rewritten. -/
theorem Alike.rewrite (ha : a.WellFormed) (hab : a.Extends b) {n : Ref} (hn : a.Has n)
    (h : Alike r r' fileName a n) : r'.rewrite fileName n b = r.rewrite fileName n b := by
  have hi := importsMarkers_of_extends r fileName hab hn ha
  have hi' := (importsMarkers_of_extends r' fileName hab hn ha).trans h.importsMarkers
  have hm := markerOf?_of_extends r fileName hab hn
  have hm' := (markerOf?_of_extends r' fileName hab hn).trans h.markerOf?
  cases himports : r.importsMarkers a fileName n with
  | true =>
    rw [rewrite_of_import (hi.trans himports), rewrite_of_import (hi'.trans himports)]
  | false =>
    cases hmarker : r.markerOf? a fileName n with
    | none =>
      rw [rewrite_of_none (hi.trans himports) (hm.trans hmarker),
        rewrite_of_none (hi'.trans himports) (hm'.trans hmarker)]
    | some m =>
      have hvalue := h.value m hmarker
      rw [← typeArgument?_of_extends hab hn ha] at hvalue
      rw [rewrite_of_call (hi.trans himports) (hm.trans hmarker),
        rewrite_of_call (hi'.trans himports) (hm'.trans hmarker), hvalue]

/-- What takes the place of a node is left as it is by any further rewriting. -/
theorem rebuild_replaced (other : Reifier) (ha : a.WellFormed) (hab : Appends a a b)
    {n new : Ref} {c : Arena} (hrw : r.rewrite fileName n b = (.replace new, c)) (levels : Nat) :
    rebuild (walk (other.rewrite fileName) levels) new c = (new, c) := by
  cases hi : r.importsMarkers b fileName n with
  | true =>
    rw [rewrite_of_import hi] at hrw
    cases (Prod.mk.inj hrw).1
  | false =>
    cases hm : r.markerOf? b fileName n with
    | none =>
      rw [rewrite_of_none hi hm] at hrw
      cases (Prod.mk.inj hrw).1
    | some m =>
      rw [rewrite_of_call hi hm] at hrw
      obtain ⟨hnew, rfl⟩ := Prod.mk.inj hrw
      obtain rfl := Rewrite.replace.inj hnew
      have hopen : Reified.Open a b := ⟨hab.wellFormed ha, hab.toExtends.size_le⟩
      have hbuilt := (Reified.build_yields hopen
        (m.value r.oracle fileName (typeArgument? b n))).post
      have hinert := Reified.inert_tree (m.value r.oracle fileName (typeArgument? b n))
      rw [← hbuilt.tree] at hinert
      exact rebuild_inert hbuilt.wellFormed hinert levels

/-- Unless something takes its place, nothing is built for a node. -/
theorem arena_of_rewrite {n : Ref} {out : Rewrite} {c : Arena}
    (hrw : r.rewrite fileName n b = (out, c)) (hout : ∀ new, out ≠ .replace new) : c = b := by
  cases hi : r.importsMarkers b fileName n with
  | true =>
    rw [rewrite_of_import hi] at hrw
    exact (Prod.mk.inj hrw).2.symm
  | false =>
    cases hm : r.markerOf? b fileName n with
    | none =>
      rw [rewrite_of_none hi hm] at hrw
      exact (Prod.mk.inj hrw).2.symm
    | some m =>
      rw [rewrite_of_call hi hm] at hrw
      exact absurd (Prod.mk.inj hrw).1.symm (hout _)

variable {root : NodeId} (ha : a.WellFormed)
include ha

/-- A node is rebuilt alike if its children are walked alike. -/
theorem rebuild_children (hab : Appends a a b) {i levels : Nat} (hreach : Reaches a root i)
    (hi : i < a.size) (hl : i ≤ levels) (hwalk : ∀ j < i, Reaches a root j → ∀ c, Appends a a c →
      walk (r'.rewrite fileName) levels (some j) c = walk (r.rewrite fileName) levels (some j) c) :
    rebuild (walk (r'.rewrite fileName) levels) (some i) b =
      rebuild (walk (r.rewrite fileName) levels) (some i) b := by
  have hb := hab.wellFormed ha
  refine (@rebuild_congr (Appends a) _ _ _ _ _ fun hd p hp c hc d hbd => ?_).symm
  have had : Appends a a d := trans_of (Appends a) hab hbd
  have hpa : a.content? (some i) = some (hd, p) :=
    (hab.toExtends.content? ha (has_some.2 hi)).symm.trans hp
  cases c with
  | none =>
    exact ⟨(walk_none_yields d levels).le, by rw [walk_none, walk_none]⟩
  | some j =>
    have hj := ha.lt_of_mem_children hpa hc
    have hjsize := Nat.lt_trans hj hi
    exact ⟨(walk_yields r fileName ha j levels d hjsize (Nat.lt_of_lt_of_le hj hl) had).le,
      (hwalk j hj (hreach.tail ((mem_childrenOf hpa).2 hc)) d had).symm⟩

variable (h : ∀ n, Reaches a root n → Alike r r' fileName a (some n))
include h

/-- They walk a tree alike if they tell alike of all its nodes what becomes of them. -/
theorem walk_congr : ∀ (i levels : Nat) (b : Arena), i < a.size → i < levels → Appends a a b →
    Reaches a root i → walk (r'.rewrite fileName) levels (some i) b =
      walk (r.rewrite fileName) levels (some i) b := by
  intro i
  induction i using Nat.strongRecOn with
  | ind i ih =>
    intro levels b hi hl hab hreach
    obtain ⟨l, rfl⟩ : ∃ l, levels = l + 1 := ⟨levels - 1, by omega⟩
    have hold := has_some.2 hi
    have hsame := (h i hreach).rewrite ha hab.toExtends hold
    rcases hrw : r.rewrite fileName (some i) b with ⟨out, c⟩
    cases out with
    | erase => rw [walk_of_erase hrw, walk_of_erase (hsame.trans hrw)]
    | replace new =>
      rw [walk_of_replace hrw, walk_of_replace (hsame.trans hrw),
        rebuild_replaced r ha hab hrw, rebuild_replaced r' ha hab hrw]
    | keep =>
      obtain rfl := arena_of_rewrite hrw fun _ heq => Rewrite.noConfusion heq
      rw [walk_of_keep hrw, walk_of_keep (hsame.trans hrw)]
      rw [rebuild_children ha hab hreach hi (Nat.lt_succ_iff.1 hl) fun j hj hreachj d had =>
        ih j hj l d (Nat.lt_trans hj hi) (by omega) had hreachj]

end Alike

/-- **Files are rewritten alike** by reifiers that tell alike of all nodes what becomes of them. -/
theorem transform_congr {r r' : Reifier} {f : SourceFile} (ha : f.arena.WellFormed)
    (h : ∀ root n, f.root = some root → Reaches f.arena root n →
      Alike r r' f.fileName f.arena (some n)) : r'.transform f = r.transform f := by
  cases hroot : f.root with
  | none =>
    rw [transform_eq_self fun root hsome =>
      absurd (hroot.symm.trans hsome).symm (Option.some_ne_none root),
      transform_eq_self fun root hsome =>
        absurd (hroot.symm.trans hsome).symm (Option.some_ne_none root)]
  | some root =>
    rcases Nat.lt_or_ge root f.arena.size with hlt | hle
    · have hbelow (n : NodeId) (hn : Reaches f.arena root n) := h root n hroot hn
      have hlevels : f.arena.size ≤ f.arena.levels := by
        rw [levels]
        omega
      have hrebuild : rebuild (walk (r'.rewrite f.fileName) f.arena.levels) (some root) f.arena =
          rebuild (walk (r.rewrite f.fileName) f.arena.levels) (some root) f.arena :=
        rebuild_children ha (refl f.arena) .refl hlt (Nat.le_trans (Nat.le_of_lt hlt) hlevels)
          fun j hj hreach c hc => walk_congr ha hbelow j f.arena.levels c (Nat.lt_trans hj hlt)
            (Nat.lt_of_lt_of_le (Nat.lt_trans hj hlt) hlevels) hc hreach
      have hsame := (hbelow root .refl).rewrite ha (Extends.refl f.arena) (has_some.2 hlt)
      have hrun : walkRoot (m := Build) (r'.rewrite f.fileName) f.arena.levels f.root f.arena =
          walkRoot (m := Build) (r.rewrite f.fileName) f.arena.levels f.root f.arena := by
        rw [hroot]
        rcases hrw : r.rewrite f.fileName (some root) f.arena with ⟨out, c⟩
        rw [hrw] at hsame
        cases out with
        | replace new =>
          simp only [walkRoot, bind, StateT.bind, hrw, hsame]
          rw [rebuild_replaced r ha (refl f.arena) hrw, rebuild_replaced r' ha (refl f.arena) hrw]
        | erase =>
          obtain rfl := arena_of_rewrite hrw fun _ heq => Rewrite.noConfusion heq
          simp only [walkRoot, bind, StateT.bind, hrw, hsame, hrebuild]
        | keep =>
          obtain rfl := arena_of_rewrite hrw fun _ heq => Rewrite.noConfusion heq
          simp only [walkRoot, bind, StateT.bind, hrw, hsame, hrebuild]
      rw [transform, transform, hrun]
    · rw [transform_of_le hroot hle, transform_of_le hroot hle]

end Reifier

end TypeReify
