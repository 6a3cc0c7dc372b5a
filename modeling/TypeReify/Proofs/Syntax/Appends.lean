import TypeReify.Proofs.Syntax.Growth
import Mathlib.Logic.Relation

/-!
# What a pass appends

A pass that rewrites the tree in `old` makes new nodes in two ways only: it copies a header of `old`
over a new payload, or it makes up a node of a literal. `Appended old` is one such step and
`Appends old` any number of them, whatever was appended before.

A tree that the pass leaves may share nodes with the tree in `old`. `Settled old P` says of a slot
that below it every node of `old` satisfies `P`, which the new nodes need not.

The two ways are `push_rebuilt` and the `add_…` functions that lowering calls.

Results:
* `Appends.toExtends`, `Appends.wellFormed`: what was there stays, and trees stay trees.
* `Appends.header_new`: a new header is a copy of an old one with a new data position, or made up.
* `Settled.mono`: what is below a slot stays as the arena grows.
-/

namespace TypeReify.Syntax

/-- The kinds of the nodes of literals. -/
def literalKinds : List Kind :=
  [.token .identifier, .token .stringLiteral, .form .propertyAssignment, .form .arrayLiteral,
    .form .objectLiteral]

/-- The header is one of a literal, and is marked as belonging to no source text. -/
structure Header.MadeUp (h : Header) : Prop where
  kind : h.kind ∈ literalKinds
  flags : h.flags = .synthesized
  start : h.start = 0
  stop : h.stop = 0

namespace Arena

/-- One node is appended: a copy of a header of `old`, or a node of a literal. -/
inductive Appended (old a : Arena) : Arena → Prop
  | node {h : Header} {x : Payload Ref} (hh : (∃ i, old.header? (some i) = some h) ∨ h.MadeUp)
      (hk : h.kind.pool? = some x.pool) (hx : ∀ r ∈ x.children, a.Has r) :
      Appended old a (a.pushRebuilt h x).2

/-- Nodes are appended one after the other. -/
def Appends (old : Arena) : Arena → Arena → Prop := Relation.ReflTransGen (Appended old)

instance (old : Arena) : IsPreorder Arena (Appends old) where
  refl _ := .refl
  trans _ _ _ := .trans

variable {old a b : Arena}

namespace Appends

theorem node {h : Header} {x : Payload Ref} (hh : (∃ i, old.header? (some i) = some h) ∨ h.MadeUp)
    (hk : h.kind.pool? = some x.pool) (hx : ∀ r ∈ x.children, a.Has r) :
    Appends old a (a.pushRebuilt h x).2 :=
  .single (.node hh hk hx)

/-- What was there stays in its place. -/
theorem toExtends (h : Appends old a b) : a.Extends b := by
  induction h with
  | refl => exact .refl a
  | tail _ hs ih =>
    cases hs with
    | node _ _ _ => exact ih.trans (extends_pushRebuilt _ _ _)

/-- Trees stay trees. -/
theorem wellFormed (h : Appends old a b) (ha : a.WellFormed) : b.WellFormed := by
  induction h with
  | refl => exact ha
  | tail _ hs ih =>
    cases hs with
    | node _ hk hx => exact ih.pushRebuilt hk hx

/-- Headers come after the ones that were there. -/
theorem headers_prefix (h : Appends old a b) : a.headers.toList <+: b.headers.toList := by
  induction h with
  | refl => exact List.prefix_rfl
  | tail _ hs ih =>
    cases hs with
    | node _ _ _ =>
      rw [headers_pushRebuilt, Array.toList_push]
      exact ih.trans (List.prefix_append _ _)

/-- So do the payloads of every pool. -/
theorem entries_prefix (h : Appends old a b) (p : Pool) :
    (a.entries p).toList <+: (b.entries p).toList := by
  induction h with
  | refl => exact List.prefix_rfl
  | tail _ hs ih =>
    cases hs with
    | node _ _ _ =>
      rw [entries_pushRebuilt]
      split
      · rw [Array.toList_push]
        exact ih.trans (List.prefix_append _ _)
      · exact ih

end Appends

/-- The header is a copy of one of `a`, over a payload that `a` has not. -/
def Copied (a : Arena) (h : Header) : Prop :=
  ∃ i h₀ p d, a.header? (some i) = some h₀ ∧ h = { h₀ with data := some d } ∧
    h₀.kind.pool? = some p ∧ (a.entries p).size ≤ d

/-- **A new header is a copy of an old one with a new data position, or made up.** -/
theorem Appends.header_new (h : Appends old old b) {i : Nat} {hd : Header} (hi : old.size ≤ i)
    (hb : b.header? (some i) = some hd) : old.Copied hd ∨ hd.MadeUp := by
  induction h with
  | refl => exact absurd (lt_of_header? hb) (Nat.not_lt.2 hi)
  | @tail c _ hc hs ih =>
    cases hs with
    | @node h₀ x hh hk hx =>
      rcases lt_or_eq_of_lt_pushRebuilt (lt_of_header? hb) with hlt | rfl
      · rw [(extends_pushRebuilt c h₀ x).header? (has_some.2 hlt)] at hb
        exact ih hb
      · obtain rfl := Option.some.inj ((header?_pushRebuilt c h₀ x).symm.trans hb)
        rcases hh with ⟨j, hj⟩ | hmade
        · exact .inl ⟨j, h₀, x.pool, _, hj, rfl, hk, (Appends.entries_prefix hc x.pool).length_le⟩
        · exact .inr ⟨hmade.kind, hmade.flags, hmade.start, hmade.stop⟩

/-! ## Slots below which old nodes are of one sort -/

/-- The slot leads to a node of the arena, if to any, and below it every node of `old` satisfies
`P`. -/
inductive Settled (old : Arena) (P : NodeId → Prop) (a : Arena) : Ref → Prop
  | none : Settled old P a none
  | node {i : NodeId} (hi : i < a.size) (hP : i < old.size → P i)
      (below : ∀ j ∈ a.childrenOf (some i), Settled old P a (some j)) : Settled old P a (some i)

namespace Settled

variable {P Q : NodeId → Prop} {r : Ref} {i : Nat}

theorem has (h : Settled old P a r) : a.Has r := by
  cases h with
  | none => exact has_none a
  | node hi _ _ => exact has_some.2 hi

theorem of_lt (h : Settled old P a (some i)) : i < old.size → P i := by
  cases h with
  | node _ hP _ => exact hP

theorem child {j : Nat} (h : Settled old P a (some i)) (hj : j ∈ a.childrenOf (some i)) :
    Settled old P a (some j) := by
  cases h with
  | node _ _ below => exact below j hj

theorem imp (hPQ : ∀ i, P i → Q i) (h : Settled old P a r) : Settled old Q a r := by
  induction h with
  | none => exact .none
  | node hi hP _ ih => exact .node hi (fun h => hPQ _ (hP h)) ih

/-- What is below a slot stays as the arena grows. -/
theorem mono (hab : a.Extends b) (ha : a.WellFormed) (h : Settled old P a r) :
    Settled old P b r := by
  induction h with
  | none => exact .none
  | @node i hi hP _ ih =>
    have hchildren : b.childrenOf (some i) = a.childrenOf (some i) := by
      rw [childrenOf, childrenOf, hab.content? ha (has_some.2 hi)]
    exact .node (Nat.lt_of_lt_of_le hi hab.size_le) hP fun j hj => ih j (hchildren ▸ hj)

/-- A node with content is settled if its children are. -/
theorem of_content? {h : Header} {p : Payload Ref} (hi : a.content? (some i) = some (h, p))
    (hP : i < old.size → P i) (below : ∀ r ∈ p.children, Settled old P a r) :
    Settled old P a (some i) :=
  .node (lt_of_content? hi) hP fun j hj => below (some j) ((mem_childrenOf hi).1 hj)

end Settled

end Arena

end TypeReify.Syntax
