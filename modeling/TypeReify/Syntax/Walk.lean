import TypeReify.Syntax.Rebuild

/-!
# Rewriting a tree from the top

`walk rewrite` first asks `rewrite` what becomes of a node and then descends into whatever took its
place. Nodes are rebuilt only above a change (see `rebuild`), so an untouched part of the tree
keeps its references. The root of a file is never erased (`walkRoot`).

The walk descends at most as many levels as it is told; `Arena.levels` is more than any walk over
a tree needs.

Model of `Rewrite`, `walk` and `walk_root`.

Results:
* `walk_keep`: keeping every node changes nothing.

Out of scope: the growing of the call stack. A walk that runs out of levels stops where the source
would go on; `Arena.levels` is chosen so that none does.
-/

namespace TypeReify.Syntax

/-- What becomes of a node. -/
inductive Rewrite
  /-- It drops out of its parent. -/
  | erase
  /-- This node stands in its place. -/
  | replace (r : Ref)
  | keep
  deriving DecidableEq, Repr

/-- A bound on the nesting of the trees in an arena, replaced parts included: on a way down every
node differs from the ones above it. -/
def Arena.levels (a : Arena) : Nat := 2 * a.size + 8

section

variable {m : Type → Type} [Monad m] [MonadStateOf Arena m]

/-- Walks the tree below `r`; `none` where the node itself is erased. -/
def walk (rewrite : Ref → m Rewrite) : Nat → Ref → m (Option Ref)
  | 0, r => return some r
  | levels + 1, r => do
    match ← rewrite r with
    | .erase => return none
    | .replace new => return some (← rebuild (walk rewrite levels) new)
    | .keep => return some (← rebuild (walk rewrite levels) r)

/-- Walks a whole file. Erasing the root keeps it. -/
def walkRoot (rewrite : Ref → m Rewrite) (levels : Nat) (root : Ref) : m Ref := do
  match ← rewrite root with
  | .replace new => rebuild (walk rewrite levels) new
  | .erase | .keep => rebuild (walk rewrite levels) root

end

theorem walk_keep (levels : Nat) (r : Ref) (a : Arena) :
    walk (m := Build) (fun _ => pure .keep) levels r a = (some r, a) := by
  induction levels generalizing r a with
  | zero => rfl
  | succ n ih =>
    have hw : walk (m := Build) (fun _ => pure .keep) n = fun r => pure (some r) := by
      funext r a; exact ih r a
    simp only [walk, pure_bind, hw]
    show ((some (rebuild (m := Build) (fun r => pure (some r)) r a).1,
      (rebuild (m := Build) (fun r => pure (some r)) r a).2) : Option Ref × Arena) = (some r, a)
    rw [rebuild_pure]

end TypeReify.Syntax
