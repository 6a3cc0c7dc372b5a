import TypeReify.Syntax.Build

/-!
# Rebuilding a node over visited children

`rebuild visit r` hands every child of `r` to `visit`. The visitor answers what now stands in the
child's place, or `none` to erase it: an erased child leaves an empty slot, or drops out of a list.
Where nothing changed, `rebuild` answers `r` itself; else it appends a copy of the header over the
new payload. Nothing already in the arena is touched, so the tree before the visit stays readable.

Visitors may keep a state of their own beside the arena, hence the monad `m`.

Model of `visit_each_child` with `visit_node`, `visit_nodes` and `visit_opt_nodes`.

Results:
* `rebuild_of_content?_eq_none`: a reference to no node, or to one without payload, stays.
* `rebuild_pure`: a visitor that keeps every child changes nothing.
-/

namespace TypeReify.Syntax

section

variable {m : Type → Type} [Monad m]

/-- Empty slots are not visited, and an erased child leaves one. -/
def visitSlot (visit : Ref → m (Option Ref)) : Ref → m Ref
  | none => pure none
  | some i => do return (← visit (some i)).getD none

/-- Every element of a list is visited, and erased ones drop out. -/
def visitList (visit : Ref → m (Option Ref)) : List Ref → m (List Ref)
  | [] => pure []
  | r :: rs => do
    let kept ← visit r
    let rest ← visitList visit rs
    return kept.toList ++ rest

variable [MonadStateOf Arena m]

/-- The node `r` with its children visited. -/
def rebuild (visit : Ref → m (Option Ref)) (r : Ref) : m Ref := do
  match (← getThe Arena).content? r with
  | none => return r
  | some (h, old) =>
    let new ← old.traverse (visitSlot visit) (visitList visit)
    if new = old then
      return r
    else
      return some (← modifyGetThe Arena (·.pushRebuilt h new))

end

theorem rebuild_of_content?_eq_none (visit : Ref → Build (Option Ref)) {r : Ref} {a : Arena}
    (h : a.content? r = none) : rebuild visit r a = (r, a) := by
  simp only [rebuild, bind, StateT.bind, getThe, MonadStateOf.get, StateT.get, pure, h]
  rfl

/-- A visit runs over the payload first and compares afterwards. -/
theorem rebuild_of_content?_eq_some (visit : Ref → Build (Option Ref)) {r : Ref} {a : Arena}
    {h : Header} {old : Payload Ref} (hc : a.content? r = some (h, old)) :
    rebuild visit r a =
      (let out := old.traverse (visitSlot visit) (visitList visit) a
       if out.1 = old then (r, out.2)
       else (some (out.2.pushRebuilt h out.1).1, (out.2.pushRebuilt h out.1).2)) := by
  simp only [rebuild, bind, StateT.bind, getThe, MonadStateOf.get, StateT.get, pure, hc]
  obtain ⟨new, b⟩ := old.traverse (visitSlot visit) (visitList visit) a
  by_cases e : new = old
  · simp only [e, if_true]; rfl
  · simp only [e, if_false]; rfl

section Keep

variable {m : Type → Type} [Monad m] [LawfulMonad m]

theorem visitSlot_keep (r : Ref) : visitSlot (m := m) (fun r => pure (some r)) r = pure r := by
  cases r <;> simp [visitSlot]

theorem visitList_keep (rs : List Ref) :
    visitList (m := m) (fun r => pure (some r)) rs = pure rs := by
  induction rs with
  | nil => rfl
  | cons r rs ih => simp [visitList, ih]

theorem traverse_pure (p : Payload Ref) : p.traverse (m := m) pure pure = pure p := by
  have opt : ∀ xs,
      Payload.traverseOptional (m := m) (pure : List Ref → m _) xs = pure xs := by
    intro xs; cases xs <;> simp [Payload.traverseOptional]
  cases p <;> simp [Payload.traverse, opt]

end Keep

/-- Keeping every child keeps the node, and the arena too. -/
theorem rebuild_pure (r : Ref) (a : Arena) :
    rebuild (m := Build) (fun r => pure (some r)) r a = (r, a) := by
  cases h : a.content? r with
  | none => exact rebuild_of_content?_eq_none _ h
  | some c =>
    obtain ⟨hd, p⟩ := c
    rw [rebuild_of_content?_eq_some _ h, funext visitSlot_keep, funext visitList_keep]
    show (let out := p.traverse (m := Build) pure pure a; _) = _
    rw [traverse_pure]
    show (if p = p then (r, a) else _) = (r, a)
    rw [if_pos rfl]

end TypeReify.Syntax
