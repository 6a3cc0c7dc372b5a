import TypeReify.Proofs.Marker.Calls
import TypeReify.Proofs.Syntax.Print

/-!
# What a rewrite leaves alone

A rewrite appends to the arena and changes nothing that stands there. So the tree that was rewritten
can still be read and printed from its old root, next to the tree that took its place.

This is about `walk`, `walk_root` and `transform_source_file`, which are handed the arena to write
into.

Results:
* `Frame.of_appends`: whatever a pass appends, the old nodes are as they were.
* `frame_rewrite`: this holds of a walk over any node, of a walk from a root, and of a whole file.
-/

namespace TypeReify

open Syntax Syntax.Arena

/-- **`b` is `a` with nodes appended by a rewrite.** Each of them is a copy of a node of `a` over
another payload, or belongs to a literal. -/
structure Frame (a b : Arena) : Prop where
  headers : a.headers.toList <+: b.headers.toList
  entries : ∀ p, (a.entries p).toList <+: (b.entries p).toList
  tree : ∀ i < a.size, b.tree (some i) = a.tree (some i)
  text : ∀ i < a.size, b.textOf (some i) = a.textOf (some i)
  header_new : ∀ i h, a.size ≤ i → b.header? (some i) = some h → a.Copied h ∨ h.MadeUp
  wellFormed : b.WellFormed

theorem Frame.of_appends {a b : Arena} (ha : a.WellFormed) (h : Appends a a b) : Frame a b where
  headers := h.headers_prefix
  entries := h.entries_prefix
  tree _ hi := h.toExtends.tree ha (has_some.2 hi)
  text _ hi := h.toExtends.textOf ha hi
  header_new _ _ hi hb := h.header_new hi hb
  wellFormed := h.wellFormed ha

namespace Reifier

/-- **A rewrite leaves everything alone that was there before it.** The levels are at least as many
as there are nodes, so a walk ends at leaves. -/
theorem frame_rewrite (r : Reifier) (fileName : String) {a : Arena} (ha : a.WellFormed)
    {i levels : Nat} (hi : i < a.size) (hl : a.size ≤ levels) :
    Frame a (walk (m := Build) (r.rewrite fileName) levels (some i) a).2 ∧
      Frame a (walkRoot (m := Build) (r.rewrite fileName) levels (some i) a).2 ∧
      Frame a (r.transform ⟨fileName, a, some i⟩).arena := by
  have hwalk := walk_yields r fileName ha i levels a hi
    (Nat.lt_of_lt_of_le hi hl) (refl a)
  have hroot := root_yields r fileName ha hi hl
  have hfile := transform_yields r (f := ⟨fileName, a, some i⟩) ha rfl hi
  exact ⟨.of_appends ha hwalk.le, .of_appends ha hroot.le, .of_appends ha hfile.le⟩

theorem frame_rewrite_callingFile :
    let r := Reifier.ofSettings (Program.ofFiles .default [declaringFile, callingFile]).oracle
      markerDisk ⟨.ofDirectory "/m", .default⟩
    let a := callingFile.arena
    a.WellFormed ∧ 11 < a.size ∧ a.size ≤ a.levels ∧
      Frame a (walk (m := Build) (r.rewrite callingFile.fileName) a.levels (some 11) a).2 ∧
      Frame a (walkRoot (m := Build) (r.rewrite callingFile.fileName) a.levels (some 11) a).2 ∧
      Frame a (r.transform ⟨callingFile.fileName, a, some 11⟩).arena :=
  have ha : callingFile.arena.WellFormed := by decide
  have hi : 11 < callingFile.arena.size := by decide
  have hl : callingFile.arena.size ≤ callingFile.arena.levels := by decide
  ⟨ha, hi, hl, frame_rewrite _ _ ha hi hl⟩

end Reifier

end TypeReify
