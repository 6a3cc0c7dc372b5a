import TypeReify.Proofs.Syntax.Appends
import TypeReify.Proofs.Syntax.Tree
import TypeReify.Syntax.Walk
import Mathlib.Data.List.Basic

/-!
# What a visit makes of a node

`Image` says what becomes of a slot when the tree below it is rewritten: nothing (the node is
erased), or a tree. A visitor that gives each child its image leaves the node with its header over
the images: an erased child leaves an empty slot or drops out of its list. This holds whether the
node was rebuilt or not, and while the visitor appends copies of nodes and literals.

This is about `visit_each_child` and `walk` as functions on trees.

Results:
* `rebuild_yields`: a visit of the children replaces them by their images.
* `rebuild_eq_self`: where every child stays, the node and the arena stay.
* `walk_eq_self`: a walk that keeps every node of a tree keeps the tree and the arena.
-/

namespace TypeReify.Syntax

/-- What becomes of a slot: it is erased, empty, or holds a tree. -/
abbrev Image := Option (Option Tree)

/-- What stands in a slot whose content has become `image`. -/
def Image.slot (image : Image) : Option Tree := image.getD none

/-- The payload over the images of its children: erased ones leave an empty slot, or drop out of
their list. -/
def Payload.image (image : Ref → Image) (p : Payload Ref) : Payload (Option Tree) :=
  p.traverse (m := Id) (fun r => (image r).slot) (List.filterMap image)

theorem Payload.image_congr {f g : Ref → Image} {p : Payload Ref}
    (h : ∀ r ∈ p.children, f r = g r) :
    p.image f = p.image g :=
  Payload.traverse_id_congr (fun r hr => by rw [h r hr]) fun _ hrs =>
    List.filterMap_congr fun r hr => h r (hrs r hr)

/-- What a child has become, unless it is erased, is a child of what the node has become. -/
theorem Payload.mem_children_image {f : Ref → Image} {p : Payload Ref} {r : Ref} {t : Option Tree}
    (hr : r ∈ p.children) (ht : f r = some t) : t ∈ (p.image f).children := by
  have hslot : t = (f r).slot := by rw [ht]; rfl
  have hlist {rs : List Ref} (h : r ∈ rs) : t ∈ rs.filterMap f := List.mem_filterMap.2 ⟨r, h, ht⟩
  have hoptional (o : Option (List Ref)) :
      (traverseOptional (m := Id) (List.filterMap f) o).getD [] = (o.getD []).filterMap f := by
    cases o <;> rfl
  cases p <;>
    simp only [image, traverse, children, pure, bind, hoptional, List.mem_cons, List.mem_append,
      List.not_mem_nil, or_false] at hr ⊢ <;>
    grind

theorem Payload.pool_image (image : Ref → Image) (p : Payload Ref) :
    (p.image image).pool = p.pool := by
  cases p <;> rfl

theorem Payload.map_id {α : Type} (p : Payload α) : p.map (fun x => x) = p := by
  have opt : ∀ o : Option (List α), traverseOptional (m := Id) id o = o := by
    intro o
    cases o <;> rfl
  cases p <;> simp [map, traverse, pure, bind, opt]

namespace Arena

/-- What a visitor answered leads to the image, and below it the nodes of `old` satisfy `P`. -/
def Lands (old : Arena) (P : NodeId → Prop) (a : Arena) (image : Image) (out : Option Ref) : Prop :=
  (∀ r ∈ out, Settled old P a r) ∧ out.map a.tree = image

theorem Lands.mono {old a b : Arena} {P : NodeId → Prop} {image : Image} {out : Option Ref}
    (h : Lands old P a image out) (ha : a.WellFormed) (hab : a.Extends b) :
    Lands old P b image out := by
  refine ⟨fun r hr => (h.1 r hr).mono hab ha, ?_⟩
  rw [← h.2]
  cases out with
  | none => rfl
  | some r => exact congrArg some (hab.tree ha (h.1 r rfl).has)

end Arena

open Arena

section Yields

variable {old : Arena} {P : NodeId → Prop} {image : Ref → Image} {visit : Ref → Build (Option Ref)}

theorem visitSlot_yields {a : Arena} {r : Ref} (hnone : (image none).slot = none)
    (h : Yields (Appends old) a (visit r) fun b out => Lands old P b (image r) out) :
    Yields (Appends old) a (visitSlot visit r) fun b y =>
      Settled old P b y ∧ b.tree y = (image r).slot := by
  cases r with
  | none => exact .pure ⟨.none, by rw [hnone, tree_none]⟩
  | some i =>
    have hslot : visitSlot visit (some i) = (fun out => out.getD none) <$> visit (some i) := rfl
    rw [hslot]
    refine h.map fun b out _ hout => ?_
    obtain ⟨hsettled, heq⟩ := hout
    rw [← heq]
    cases out with
    | none => exact ⟨.none, tree_none b⟩
    | some y => exact ⟨hsettled y rfl, rfl⟩

theorem visitList_yields {a : Arena} (ha : a.WellFormed) {rs : List Ref}
    (h : ∀ r ∈ rs, ∀ b, Appends old a b →
      Yields (Appends old) b (visit r) fun c out => Lands old P c (image r) out) :
    Yields (Appends old) a (visitList visit rs) fun b ys =>
      (∀ y ∈ ys, Settled old P b y) ∧ ys.map b.tree = rs.filterMap image := by
  induction rs generalizing a with
  | nil => exact .pure ⟨by simp, rfl⟩
  | cons r rs ih =>
    have hr := h r List.mem_cons_self a (refl a)
    -- The answer for the head is read again at the end; the arena is well-formed in between.
    have hb : (visit r a).2.WellFormed := hr.le.wellFormed ha
    have hrest := ih hb fun r' hr' b hab =>
      h r' (List.mem_cons_of_mem r hr') b (trans_of (Appends old) hr.le hab)
    have hland := hr.post.mono hb hrest.le.toExtends
    have hrun : visitList visit (r :: rs) a = ((visit r a).1.toList ++
        (visitList visit rs (visit r a).2).1, (visitList visit rs (visit r a).2).2) := rfl
    constructor
    · rw [hrun]
      exact trans_of (Appends old) hr.le hrest.le
    · rw [hrun]
      refine ⟨fun y hy => ?_, ?_⟩
      · rcases List.mem_append.1 hy with hy | hy
        · exact hland.1 y (Option.mem_toList.1 hy)
        · exact hrest.post.1 y hy
      · rw [List.map_append, hrest.post.2, List.filterMap_cons, ← hland.2]
        cases (visit r a).1 <;> rfl

/-- A visit of the children of an old node replaces them by their images. A copy of the node is new,
so only where the node itself stays has it to satisfy `P`. -/
theorem rebuild_yields {a : Arena} (ha : a.WellFormed) (hold : old.Extends a)
    (hnone : (image none).slot = none) {i : Nat} {h : Header} {p : Payload Ref}
    (hi : old.header? (some i) = some h) (hp : a.content? (some i) = some (h, p)) (hP : P i)
    (hvisit : ∀ r ∈ p.children, ∀ b, Appends old a b →
      Yields (Appends old) b (visit r) fun c out => Lands old P c (image r) out) :
    Yields (Appends old) a (rebuild visit (some i)) fun b y =>
      Settled old P b y ∧ b.tree y = some (.ofHeader h (some (p.image image))) := by
  have hwf : ∀ {b}, Appends old a b → b.WellFormed := fun hab => hab.wellFormed ha
  have hpayload : Yields (Appends old) a (p.traverse (visitSlot visit) (visitList visit)) fun b q =>
      (∀ y ∈ q.children, b.WellFormed ∧ Settled old P b y) ∧ q.map b.tree = p.image image := by
    refine Payload.traverse_yields p (fun b c r hbc hr => ?_) (fun r hr b hab => ?_)
      fun rs hrs b hab => ?_
    · exact ⟨⟨hbc.wellFormed hr.1, hr.2.mono hbc.toExtends hr.1⟩,
        hbc.toExtends.tree hr.1 hr.2.has⟩
    · refine (visitSlot_yields hnone (hvisit r hr b hab)).mono fun c y hbc hy => ?_
      exact ⟨⟨hbc.wellFormed (hwf hab), hy.1⟩, hy.2⟩
    · have hlist := visitList_yields (hwf hab) fun r hr c hbc =>
        hvisit r (hrs r hr) c (trans_of (Appends old) hab hbc)
      exact hlist.mono fun c ys hbc hys =>
        ⟨fun y hy => ⟨hbc.wellFormed (hwf hab), hys.1 y hy⟩, hys.2⟩
  have hrun := rebuild_of_content?_eq_some visit hp
  -- `new` is the payload as the visit left it, in the arena `b`.
  rcases hout : p.traverse (visitSlot visit) (visitList visit) a with ⟨new, b⟩
  obtain ⟨hle, hvalid, hmap⟩ := hpayload
  rw [hout] at hle hvalid hmap hrun
  dsimp only at hle hvalid hmap hrun
  have hb : b.WellFormed := hle.wellFormed ha
  have hpool : h.kind.pool? = some new.pool := by
    rw [pool_of_content? hp, ← Payload.pool_image image p, ← Payload.pool_map b.tree new]
    exact congrArg (some ·.pool) hmap.symm
  by_cases e : new = p
  · simp only [e, if_true] at hrun hmap hvalid
    have hib : b.content? (some i) = some (h, p) := by
      rw [hle.toExtends.content? ha (has_some.2 (lt_of_content? hp)), hp]
    refine ⟨by rw [hrun]; exact hle, ?_⟩
    rw [hrun]
    exact ⟨.of_content? hib (fun _ => hP) fun r hr => (hvalid r hr).2,
      by rw [tree_of_content? hb hib, hmap]⟩
  · simp only [e, if_false] at hrun
    have hchildren : ∀ r ∈ new.children, b.Has r := fun r hr => (hvalid r hr).2.has
    have hc : (b.pushRebuilt h new).2.WellFormed := hb.pushRebuilt hpool hchildren
    have hbc := extends_pushRebuilt b h new
    have hnew := content?_pushRebuilt b hpool
    have happends : old.Appends a (b.pushRebuilt h new).2 :=
      trans_of (Appends old) hle (.node (.inl ⟨i, hi⟩) hpool hchildren)
    refine ⟨by rw [hrun]; exact happends, ?_⟩
    rw [hrun]
    have hmap' : new.map (b.pushRebuilt h new).2.tree = p.image image := by
      rw [Payload.map_congr fun r hr => hbc.tree hb (hchildren r hr)]
      exact hmap
    have hsize := (hold.trans hle.toExtends).size_le
    refine ⟨.of_content? hnew (fun hlt => absurd hlt (Nat.not_lt.2 hsize)) fun r hr =>
      (hvalid r hr).2.mono hbc hb, ?_⟩
    show Arena.tree _ (some b.size) = _
    rw [tree_of_content? hc hnew, hmap']
    rfl

/-- Where nothing has content, nothing is rebuilt. -/
theorem rebuild_none (a : Arena) : rebuild visit none a = (none, a) :=
  rebuild_of_content?_eq_none visit rfl

end Yields

section Agrees

variable {le : Arena → Arena → Prop} [IsPreorder Arena le] {visit visit' : Ref → Build (Option Ref)}

theorem visitSlot_agrees {a : Arena} {r : Ref} (h : Agrees le a (visit r) (visit' r)) :
    Agrees le a (visitSlot visit r) (visitSlot visit' r) := by
  cases r with
  | none => exact .refl (refl a)
  | some i => exact h.bind fun b out _ => .refl (refl b)

theorem visitList_agrees {a : Arena} {rs : List Ref}
    (h : ∀ r ∈ rs, ∀ b, le a b → Agrees le b (visit r) (visit' r)) :
    Agrees le a (visitList visit rs) (visitList visit' rs) := by
  induction rs generalizing a with
  | nil => exact .refl (refl a)
  | cons r rs ih =>
    refine (h r List.mem_cons_self a (refl a)).bind fun b kept hab => ?_
    have hrest := ih fun r' hr' c hbc =>
      h r' (List.mem_cons_of_mem r hr') c (trans_of le hab hbc)
    exact hrest.bind fun c rest _ => .refl (refl c)

/-- Two visitors that do the same with every child rebuild the same. -/
theorem rebuild_congr {a : Arena} {r : Ref} (h : ∀ hd p, a.content? r = some (hd, p) →
    ∀ c ∈ p.children, ∀ b, le a b → Agrees le b (visit c) (visit' c)) :
    rebuild visit r a = rebuild visit' r a := by
  cases hr : a.content? r with
  | none => rw [rebuild_of_content?_eq_none visit hr, rebuild_of_content?_eq_none visit' hr]
  | some c =>
    obtain ⟨hd, p⟩ := c
    have hp : Agrees le a (p.traverse (visitSlot visit) (visitList visit))
        (p.traverse (visitSlot visit') (visitList visit')) :=
      Payload.traverse_agrees p (fun c hc b hb => visitSlot_agrees (h hd p hr c hc b hb))
        fun cs hcs b hb => visitList_agrees fun c hc d hd' =>
          h hd p hr c (hcs c hc) d (trans_of le hb hd')
    rw [rebuild_of_content?_eq_some visit hr, rebuild_of_content?_eq_some visit' hr, hp.same]

/-- Where every child stays, the node and the arena stay. -/
theorem rebuild_eq_self {a : Arena} {r : Ref}
    (h : ∀ hd p, a.content? r = some (hd, p) → ∀ c ∈ p.children, visit c a = (some c, a)) :
    rebuild visit r a = (r, a) := by
  have hkeep : rebuild visit r a = rebuild (m := Build) (fun c => pure (some c)) r a := by
    refine @rebuild_congr Eq _ _ _ _ _ fun hd p hr c hc b hb => ?_
    have hrun := h hd p hr c hc
    subst hb
    exact ⟨by rw [hrun], hrun⟩
  rw [hkeep, rebuild_pure]

end Agrees

section Walk

variable {rewrite : Ref → Build Rewrite} {n : Ref} {a b : Arena}

theorem walk_of_erase (h : rewrite n a = (.erase, b)) (levels : Nat) :
    walk rewrite (levels + 1) n a = (none, b) := by
  simp only [walk, bind, StateT.bind, h]
  rfl

theorem walk_of_replace {new : Ref} (h : rewrite n a = (.replace new, b)) (levels : Nat) :
    walk rewrite (levels + 1) n a =
      (some (rebuild (walk rewrite levels) new b).1, (rebuild (walk rewrite levels) new b).2) := by
  simp only [walk, bind, StateT.bind, h]
  rfl

theorem walk_of_keep (h : rewrite n a = (.keep, b)) (levels : Nat) :
    walk rewrite (levels + 1) n a =
      (some (rebuild (walk rewrite levels) n b).1, (rebuild (walk rewrite levels) n b).2) := by
  simp only [walk, bind, StateT.bind, h]
  rfl

/-- A walk that keeps every node of a tree keeps the tree and the arena. `S` holds the slots of the
tree. -/
theorem walk_eq_self {S : Ref → Prop}
    (hchild : ∀ r h p, S r → a.content? r = some (h, p) → ∀ c ∈ p.children, S c)
    (hkeep : ∀ r, S r → rewrite r a = (.keep, a)) :
    ∀ levels r, S r → walk rewrite levels r a = (some r, a) := by
  intro levels
  induction levels with
  | zero => intro r _; rfl
  | succ n ih =>
    intro r hr
    have hre : rebuild (walk rewrite n) r a = (r, a) :=
      rebuild_eq_self fun h p hp c hc => ih c (hchild r h p hr hp c hc)
    rw [walk_of_keep (hkeep r hr), hre]

end Walk

end TypeReify.Syntax
