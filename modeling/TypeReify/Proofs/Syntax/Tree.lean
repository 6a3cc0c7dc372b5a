import TypeReify.Proofs.Syntax.Growth
import TypeReify.Proofs.Syntax.Traverse

/-!
# The tree below a node

An arena stores a tree by references. `Arena.tree` reads it back as a value: what a header says of
the node itself, and a payload whose children are trees. Where the payload of a node is stored is
not part of the tree, so two arenas may hold the same one. `Arena.fold` makes anything else of the
nodes below a slot in the same way.

What `NodeAccess` answers about a node and about the nodes below it can be told from this tree.

Results:
* `fold_of_header?`: what is made of a node, by its header, its payload and what is made of its
  children.
* `tree_of_header?`: the tree of a node, by its header, its payload and the trees below it.
* `Extends.tree`: a larger arena holds the same trees below the old nodes.
* `texts_tree`: names and texts are read off the trees.
-/

namespace TypeReify.Syntax

/-- A node with everything below it. A node without payload has nothing below it. -/
inductive Tree
  | node (kind : Kind) (flags : Flags) (start stop : Nat) (payload : Option (Payload (Option Tree)))

namespace Tree

/-- A node as its header describes it. -/
def ofHeader (h : Header) (payload : Option (Payload (Option Tree))) : Tree :=
  .node h.kind h.flags h.start h.stop payload

/-- A node that a rewrite made up. -/
def synthesized (kind : Kind) (payload : Payload (Option Tree)) : Tree :=
  .node kind .synthesized 0 0 payload

/-- The tree, or a tree below it. -/
inductive Part (t : Tree) : Tree → Prop
  | whole : Part t t
  | inside {kind : Kind} {flags : Flags} {start stop : Nat} {p : Payload (Option Tree)} {u : Tree}
      (hu : some u ∈ p.children) (h : Part t u) : Part t (.node kind flags start stop (some p))

/-- The text of a tree that is an identifier. -/
def identifierText? : Option Tree → Option String
  | some (.node _ _ _ _ (some (.identifier text))) => some text
  | _ => none

/-- The text of a tree that is a literal. -/
def literalText? : Option Tree → Option String
  | some (.node _ _ _ _ (some (.literal text))) => some text
  | _ => none

theorem Part.trans {t u v : Tree} (h : Part t u) (h' : Part u v) : Part t v := by
  induction h' with
  | whole => exact h
  | inside hu _ ih => exact .inside hu ih

end Tree

namespace Arena

/-- The tree below a slot, read `levels` nodes deep; an empty slot has none. -/
def readTree (a : Arena) : (levels : Nat) → Ref → Option Tree
  | 0, _ => none
  | levels + 1, r =>
    (a.header? r).map fun h => .ofHeader h ((a.payload? h).map (·.map (a.readTree levels)))

/-- The tree below a slot. In a well-formed arena no tree is deeper than there are nodes. -/
def tree (a : Arena) (r : Ref) : Option Tree := a.readTree a.size r

section Fold

variable {β : Type} (a : Arena) (node : Header → Option (Payload (Option β)) → β)

/-- What `node` makes of the nodes below a slot, `levels` deep: of each from its header and from
what it made of the children. -/
def foldAt : (levels : Nat) → Ref → Option β
  | 0, _ => none
  | levels + 1, r => (a.header? r).map fun h => node h ((a.payload? h).map (·.map (foldAt levels)))

/-- What `node` makes of all nodes below a slot. -/
def fold (r : Ref) : Option β := a.foldAt node a.size r

theorem readTree_eq_foldAt : a.readTree = a.foldAt Tree.ofHeader := by
  funext levels
  induction levels with
  | zero => rfl
  | succ levels ih =>
    funext r
    rw [readTree, foldAt, ih]

theorem foldAt_none (levels : Nat) : a.foldAt node levels none = none := by
  cases levels <;> rfl

@[simp] theorem fold_none : a.fold node none = none := a.foldAt_none node a.size

theorem foldAt_of_le (levels : Nat) {i : Nat} (h : a.size ≤ i) :
    a.foldAt node levels (some i) = none := by
  cases levels with
  | zero => rfl
  | succ n =>
    have hi : a.header? (some i) = none := Array.getElem?_eq_none h
    simp [foldAt, hi]

end Fold

variable {a b : Arena}

theorem readTree_none (a : Arena) (levels : Nat) : a.readTree levels none = none := by
  rw [readTree_eq_foldAt, foldAt_none]

@[simp] theorem tree_none (a : Arena) : a.tree none = none := a.readTree_none a.size

theorem readTree_of_le (a : Arena) (levels : Nat) {i : Nat} (h : a.size ≤ i) :
    a.readTree levels (some i) = none := by
  rw [readTree_eq_foldAt, foldAt_of_le a _ levels h]

theorem WellFormed.lt_of_payload? (ha : a.WellFormed) {i j : Nat} {h : Header} {p : Payload Ref}
    (hi : a.header? (some i) = some h) (hp : a.payload? h = some p) (hj : some j ∈ p.children) :
    j < i :=
  ha.lt_of_mem_children (content?_eq_some.2 ⟨hi, hp⟩) hj

section Fold

variable {β : Type} {node : Header → Option (Payload (Option β)) → β}

/-- Two arenas that agree on the nodes up to a position are folded alike there. -/
theorem foldAt_congr (ha : a.WellFormed) {n : Nat}
    (hh : ∀ i < n, b.header? (some i) = a.header? (some i))
    (hp : ∀ i < n, ∀ h, a.header? (some i) = some h → b.payload? h = a.payload? h) :
    ∀ (i levels levels' : Nat), i < n → i < levels → i < levels' →
      b.foldAt node levels' (some i) = a.foldAt node levels (some i) := by
  intro i
  induction i using Nat.strongRecOn with
  | ind i ih =>
    intro levels levels' hn hl hl'
    obtain ⟨l, rfl⟩ : ∃ l, levels = l + 1 := ⟨levels - 1, by omega⟩
    obtain ⟨l', rfl⟩ : ∃ l', levels' = l' + 1 := ⟨levels' - 1, by omega⟩
    simp only [foldAt, hh i hn]
    cases hi : a.header? (some i) with
    | none => rfl
    | some h =>
      simp only [Option.map_some, hp i hn h hi]
      cases hx : a.payload? h with
      | none => rfl
      | some p =>
        simp only [Option.map_some]
        congr 3
        refine Payload.map_congr fun r hr => ?_
        cases r with
        | none => rw [foldAt_none, foldAt_none]
        | some j =>
          have hj := ha.lt_of_payload? hi hx hr
          exact ih j hj l l' (by omega) (by omega) (by omega)

/-- Levels beyond the position of a node do not matter. -/
theorem foldAt_eq_fold (ha : a.WellFormed) {i levels : Nat} (hi : i < levels) :
    a.foldAt node levels (some i) = a.fold node (some i) := by
  by_cases hlt : i < a.size
  · exact foldAt_congr ha (fun _ _ => rfl) (fun _ _ _ _ => rfl) i a.size levels hlt hlt hi
  · rw [a.foldAt_of_le node levels (Nat.le_of_not_lt hlt), fold,
      a.foldAt_of_le node a.size (Nat.le_of_not_lt hlt)]

/-- What is made of a node, by its header, its payload and what is made of its children. -/
theorem fold_of_header? (ha : a.WellFormed) {i : Nat} {h : Header}
    (hi : a.header? (some i) = some h) :
    a.fold node (some i) = some (node h ((a.payload? h).map (·.map (a.fold node)))) := by
  rw [← foldAt_eq_fold ha (Nat.lt_succ_self i)]
  simp only [foldAt, hi, Option.map_some]
  cases hx : a.payload? h with
  | none => rfl
  | some p =>
    simp only [Option.map_some]
    congr 3
    refine Payload.map_congr fun r hr => ?_
    cases r with
    | none => rw [foldAt_none, fold_none]
    | some j => exact foldAt_eq_fold ha (ha.lt_of_payload? hi hx hr)

theorem fold_of_content? (ha : a.WellFormed) {i : Nat} {h : Header} {p : Payload Ref}
    (hi : a.content? (some i) = some (h, p)) :
    a.fold node (some i) = some (node h (some (p.map (a.fold node)))) := by
  obtain ⟨hh, hp⟩ := content?_eq_some.1 hi
  rw [fold_of_header? ha hh, hp]
  rfl

end Fold

theorem tree_eq_fold (a : Arena) : a.tree = a.fold Tree.ofHeader := by
  funext r
  rw [tree, fold, readTree_eq_foldAt]

/-- The tree of a node: its header over the trees of its children. -/
theorem tree_of_header? (ha : a.WellFormed) {i : Nat} {h : Header}
    (hi : a.header? (some i) = some h) :
    a.tree (some i) = some (.ofHeader h ((a.payload? h).map (·.map a.tree))) := by
  rw [tree_eq_fold]
  exact fold_of_header? ha hi

theorem tree_of_content? (ha : a.WellFormed) {i : Nat} {h : Header} {p : Payload Ref}
    (hi : a.content? (some i) = some (h, p)) :
    a.tree (some i) = some (.ofHeader h (some (p.map a.tree))) := by
  obtain ⟨hh, hp⟩ := content?_eq_some.1 hi
  rw [tree_of_header? ha hh, hp]
  rfl

/-- A larger arena holds the same trees below the old nodes. -/
theorem Extends.tree (h : Extends a b) (ha : a.WellFormed) {r : Ref} (hr : a.Has r) :
    b.tree r = a.tree r := by
  cases r with
  | none => rw [tree_none, tree_none]
  | some i =>
    have hi := has_some.1 hr
    rw [Arena.tree, Arena.tree, readTree_eq_foldAt, readTree_eq_foldAt]
    exact foldAt_congr ha (fun j hj => h.header? (has_some.2 hj))
      (fun j _ hd hj => h.payload? ha hj) i a.size b.size hi hi (Nat.lt_of_lt_of_le hi h.size_le)

/-- The tree of a slot, by the header it leads to. -/
theorem tree_eq (ha : a.WellFormed) (r : Ref) : a.tree r =
    (a.header? r).map fun h => .ofHeader h ((a.payload? h).map (·.map a.tree)) := by
  cases r with
  | none => rw [tree_none]; rfl
  | some i =>
    cases hi : a.header? (some i) with
    | none => rw [tree, a.readTree_of_le a.size (Array.getElem?_eq_none_iff.1 hi)]; rfl
    | some h => exact tree_of_header? ha hi

/-- A slot has content, and then its tree has it too, or it leads to nothing that has. -/
theorem tree_cases (ha : a.WellFormed) (r : Ref) :
    (a.content? r = none ∧ (a.tree r = none ∨ ∃ h, a.tree r = some (.ofHeader h none))) ∨
      ∃ i h p, r = some i ∧ a.content? (some i) = some (h, p) ∧
        a.tree (some i) = some (.ofHeader h (some (p.map a.tree))) := by
  cases hc : a.content? r with
  | some c =>
    obtain ⟨i, rfl, -⟩ := Option.bind_eq_some_iff.1 (content?_eq_some.1 hc).1
    exact .inr ⟨i, c.1, c.2, rfl, hc, tree_of_content? ha hc⟩
  | none =>
    refine .inl ⟨rfl, ?_⟩
    rw [tree_eq ha]
    cases hh : a.header? r with
    | none => exact .inl rfl
    | some h =>
      refine .inr ⟨h, ?_⟩
      cases hp : a.payload? h with
      | none => rw [Option.map_some, hp, Option.map_none]
      | some p => exact absurd (content?_eq_some.2 ⟨hh, hp⟩) (by rw [hc]; exact fun h => nomatch h)

/-- The text of an identifier can be told from its tree, and so can that of a literal. -/
theorem texts_tree (ha : a.WellFormed) (r : Ref) :
    Tree.identifierText? (a.tree r) = a.identifierText? r ∧
      Tree.literalText? (a.tree r) = a.literalText? r := by
  rw [tree_eq ha, identifierText?, literalText?, content?]
  cases a.header? r with
  | none => exact ⟨rfl, rfl⟩
  | some h =>
    simp only [Option.map_some, Option.bind_eq_bind, Option.bind_some]
    cases a.payload? h with
    | none => exact ⟨rfl, rfl⟩
    | some p => cases p <;> exact ⟨rfl, rfl⟩

end Arena

end TypeReify.Syntax
