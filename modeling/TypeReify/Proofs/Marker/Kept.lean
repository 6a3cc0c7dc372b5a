import TypeReify.Proofs.Check.Callee
import TypeReify.Proofs.Marker.Image

/-!
# What a rewritten tree is made of

Below the root of a rewritten file there are two sorts of nodes: those of literals, and those that
were kept. A kept node goes back to a node of the old tree which was no marker call, and its
children go back to the children of that node. So a way down the new tree is a way down the old one,
as far as it does not lead into a literal.

The new nodes are those of `push_rebuilt`, called by `visit_each_child`, and those of `lower_keys`
and `lower_type_members`.

Results:
* `Kept.content?`: a kept node has what the old node has, over the images of the old children.
* `descent_kept`: a way down a rewritten tree goes back to a way down the old tree.
* `Stands.exists_reaches`: a node that stands has left its image in the rewritten tree.
* `importsMarkers_child`: no import of the markers is left.
-/

namespace TypeReify

open Check Scope Syntax Syntax.Arena

/-! ## Children of an image -/

/-- A child of what a node has become is what some child of the node has become. -/
theorem Syntax.Payload.exists_of_mem_children_image {f : Ref → Image} {p : Payload Ref}
    {t : Option Tree} (ht : t ∈ (p.image f).children) : ∃ r ∈ p.children, (f r).slot = t := by
  have hlist {rs : List Ref} (h : t ∈ rs.filterMap f) : ∃ r ∈ rs, (f r).slot = t := by
    obtain ⟨r, hr, hf⟩ := List.mem_filterMap.1 h
    exact ⟨r, hr, by rw [hf]; rfl⟩
  have hoptional (o : Option (List Ref)) :
      (traverseOptional (m := Id) (List.filterMap f) o).getD [] = (o.getD []).filterMap f := by
    cases o <;> rfl
  cases p <;>
    simp only [image, traverse, children, pure, bind, hoptional, List.mem_cons, List.mem_append,
      List.not_mem_nil, or_false] at ht ⊢ <;>
    grind

theorem Syntax.Payload.pool_eq_of_image {f : Ref → Image} {g : Ref → Option Tree}
    {p q : Payload Ref} (h : q.map g = p.image f) : q.pool = p.pool := by
  rw [← Payload.pool_map g q, h, Payload.pool_image]

namespace Reifier

variable (r : Reifier) (fileName : String) (a b : Arena)

/-- **The node at `y` of `b` is the node at `x` of `a`, kept over what its children have become.**
-/
structure Kept (x y : NodeId) : Prop where
  noMarker : NoMarker r fileName a x
  tree : ∃ h, a.header? (some x) = some h ∧ b.tree (some y) =
    some (.ofHeader h ((a.payload? h).map (·.image (r.image fileName a))))

variable {r fileName a b}

theorem Kept.kind? (hb : b.WellFormed) {x y : NodeId} (h : Kept r fileName a b x y) :
    b.kind? (some y) = a.kind? (some x) := by
  obtain ⟨hd, hx, htree⟩ := h.tree
  rw [tree_eq hb] at htree
  obtain ⟨hd', hy, heq⟩ := Option.map_eq_some_iff.1 htree
  rw [Arena.kind?, Arena.kind?, hx, hy, Option.map_some, Option.map_some, (Tree.node.inj heq).1]

/-- A kept node has what the old node has, over the images of the old children. -/
theorem Kept.content? (hb : b.WellFormed) {x y : NodeId} (h : Kept r fileName a b x y)
    {hd' : Header} {q : Payload Ref} (hq : b.content? (some y) = some (hd', q)) :
    ∃ hd p, a.content? (some x) = some (hd, p) ∧ hd'.kind = hd.kind ∧ hd'.flags = hd.flags ∧
      q.map b.tree = p.image (r.image fileName a) := by
  obtain ⟨hd, hx, htree⟩ := h.tree
  rw [tree_of_content? hb hq] at htree
  obtain ⟨hkind, hflags, -, -, hpayload⟩ := Tree.node.inj (Option.some.inj htree)
  obtain ⟨p, hp, heq⟩ := Option.map_eq_some_iff.1 hpayload.symm
  exact ⟨hd, p, content?_eq_some.2 ⟨hx, hp⟩, hkind, hflags, heq.symm⟩

/-- A kept node has content where the old node has. -/
theorem Kept.exists_content (hb : b.WellFormed) {x y : NodeId} (h : Kept r fileName a b x y)
    {hd : Header} {p : Payload Ref} (hp : a.content? (some x) = some (hd, p)) :
    ∃ hd' q, b.content? (some y) = some (hd', q) ∧ hd'.kind = hd.kind ∧
      q.map b.tree = p.image (r.image fileName a) := by
  obtain ⟨hd₀, hx, htree⟩ := h.tree
  obtain ⟨hx', hpayload⟩ := content?_eq_some.1 hp
  obtain rfl := Option.some.inj (hx.symm.trans hx')
  rw [hpayload] at htree
  rcases tree_cases hb (some y) with ⟨-, hnone | ⟨hd', hbare⟩⟩ | ⟨i, hd', q, hi, hq, hnode⟩
  · exact absurd (hnone.symm.trans htree) (by simp)
  · exact absurd (hbare.symm.trans htree) (by simp [Tree.ofHeader])
  · obtain rfl := Option.some.inj hi
    obtain ⟨hkind, -, -, -, hq'⟩ := Tree.node.inj (Option.some.inj (hnode.symm.trans htree))
    exact ⟨hd', q, hq, hkind, Option.some.inj hq'⟩

/-- Without payload, a kept node has none either. -/
theorem Kept.content?_none (hb : b.WellFormed) {x y : NodeId} (h : Kept r fileName a b x y)
    (hx : a.content? (some x) = none) : b.content? (some y) = none := by
  cases hy : b.content? (some y) with
  | none => rfl
  | some content =>
    obtain ⟨hd', q⟩ := content
    obtain ⟨hd, p, hp, -⟩ := h.content? hb hy
    exact absurd (hp.symm.trans hx) (Option.some_ne_none _)

/-- What is not erased is left as a tree. -/
theorem exists_image (ha : a.WellFormed) {x : NodeId} (hx : x < a.size)
    (hi : r.importsMarkers a fileName (some x) = false) :
    ∃ t, r.image fileName a (some x) = some (some t) := by
  obtain ⟨hd, hh⟩ := header?_of_lt hx
  rw [image_eq_rootImage ha hi, rootImage, hh]
  cases r.markerOf? a fileName (some x) with
  | some m => exact ⟨_, rfl⟩
  | none => exact ⟨_, rfl⟩

/-- What is neither erased nor replaced is kept. -/
theorem Kept.of_image (ha : a.WellFormed) (hb : b.WellFormed) {x y : NodeId} (hy : y < b.size)
    (hi : r.importsMarkers a fileName (some x) = false) (hm : NoMarker r fileName a x)
    (himage : (r.image fileName a (some x)).slot = b.tree (some y)) : Kept r fileName a b x y := by
  obtain ⟨hd', hh'⟩ := header?_of_lt hy
  rw [image_eq ha, imageOver_eq, hi, if_neg Bool.false_ne_true, hm] at himage
  cases hh : a.header? (some x) with
  | none =>
    rw [hh, tree_of_header? hb hh'] at himage
    exact absurd himage (by simp [Image.slot])
  | some hd =>
    rw [hh] at himage
    exact ⟨hm, hd, hh, himage.symm⟩

/-- What a slot has become was kept, or is the literal of a marker call. -/
theorem kept_or_literal (ha : a.WellFormed) (hb : b.WellFormed) {x : Ref} {y : Nat}
    (hy : y < b.size) (himage : (r.image fileName a x).slot = b.tree (some y)) :
    (∃ i, x = some i ∧ r.importsMarkers a fileName x = false ∧ Kept r fileName a b i y) ∨
      ∃ value : Reified, b.tree (some y) = some value.tree := by
  obtain ⟨hd', hh'⟩ := header?_of_lt hy
  have htree := tree_of_header? hb hh'
  cases x with
  | none => exact absurd (himage.trans htree) (by simp [Image.slot])
  | some i =>
    cases hi : r.importsMarkers a fileName (some i) with
    | true =>
      rw [image_eq ha, imageOver_eq, hi, if_pos rfl] at himage
      exact absurd (himage.trans htree) (by simp [Image.slot])
    | false =>
      cases hm : r.markerOf? a fileName (some i) with
      | some m =>
        rw [image_eq ha, imageOver_eq, hi, if_neg Bool.false_ne_true, hm] at himage
        exact .inr ⟨_, himage.symm⟩
      | none => exact .inl ⟨i, rfl, rfl, .of_image ha hb hy hi hm himage⟩

/-- What a slot has become was kept, or holds no call and no import. -/
theorem kept_or_inert (ha : a.WellFormed) (hb : b.WellFormed) {x : Ref} {y : Nat} (hy : y < b.size)
    (himage : (r.image fileName a x).slot = b.tree (some y)) :
    (∃ i, x = some i ∧ r.importsMarkers a fileName x = false ∧ Kept r fileName a b i y) ∨
      Tree.Inert (b.tree (some y)) := by
  rcases kept_or_literal ha hb hy himage with hkept | ⟨value, hvalue⟩
  · exact .inl hkept
  · exact .inr (hvalue ▸ value.inert_tree)

/-- The children of a kept node go back to children of the old node. -/
theorem child_kept_or_inert (ha : a.WellFormed) (hb : b.WellFormed) {p q : Payload Ref} {k : Nat}
    {n : NodeId} {hd : Header} (hn : b.content? (some n) = some (hd, q))
    (hpq : q.map b.tree = p.image (r.image fileName a)) (hk : some k ∈ q.children) :
    (∃ c, some c ∈ p.children ∧ r.importsMarkers a fileName (some c) = false ∧
      Kept r fileName a b c k) ∨ Tree.Inert (b.tree (some k)) := by
  have hmem : b.tree (some k) ∈ (p.image (r.image fileName a)).children := by
    rw [← hpq, Payload.children_map]
    exact List.mem_map_of_mem hk
  obtain ⟨x, hx, himage⟩ := Payload.exists_of_mem_children_image hmem
  have hlt := has_some.1 (hb.has_of_mem_children hn hk)
  rcases kept_or_inert ha hb hlt himage with ⟨c, rfl, hi, hkept⟩ | hinert
  · exact .inl ⟨c, hx, hi, hkept⟩
  · exact .inr hinert

/-- A child slot that holds a tree leads to a node further down. -/
theorem exists_node (hb : b.WellFormed) {y : NodeId} {h : Header} {q : Payload Ref}
    {c : Ref} {t : Tree}
    (hq : b.content? (some y) = some (h, q)) (hc : c ∈ q.children) (ht : b.tree c = some t) :
    ∃ i : Nat, c = some i ∧ i < b.size ∧ i < y := by
  cases c with
  | none => exact absurd (b.tree_none.symm.trans ht) (Option.some_ne_none t).symm
  | some i => exact ⟨i, rfl, has_some.1 (hb.has_of_mem_children hq hc), hb.lt_of_mem_children hq hc⟩

/-- What was a child and was not erased leads to a node further down. -/
theorem exists_slot (ha : a.WellFormed) (hb : b.WellFormed) {x c y : NodeId} {hd hd' : Header}
    {p q : Payload Ref} {slot : Ref} (hp : a.content? (some x) = some (hd, p))
    (hc : some c ∈ p.children) (hi : r.importsMarkers a fileName (some c) = false)
    (hq : b.content? (some y) = some (hd', q)) (hslot : slot ∈ q.children)
    (himage : b.tree slot = (r.image fileName a (some c)).slot) :
    ∃ i : Nat, slot = some i ∧ i < b.size ∧ i < y := by
  obtain ⟨t, ht⟩ := exists_image ha (has_some.1 (ha.has_of_mem_children hp hc)) hi
  exact exists_node hb hq hslot (t := t) (by rw [himage, ht]; rfl)

/-- A child that is not erased has become a child of what the node has become. -/
theorem Kept.exists_child (hb : b.WellFormed) {x y c : NodeId}
    (h : Kept r fileName a b x y) {hd : Header} {p : Payload Ref}
    (hp : a.content? (some x) = some (hd, p)) (hc : some c ∈ p.children) {t : Tree}
    (ht : r.image fileName a (some c) = some (some t)) :
    ∃ k, k ∈ b.childrenOf (some y) ∧ k < b.size ∧ b.tree (some k) = some t := by
  obtain ⟨hd', q, hq, -, hpq⟩ := h.exists_content hb hp
  have hmem := Payload.mem_children_image hc ht
  rw [← hpq, Payload.children_map] at hmem
  obtain ⟨k, hk, htree⟩ := List.mem_map.1 hmem
  obtain ⟨k, rfl, hsize, -⟩ := exists_node hb hq hk htree
  exact ⟨k, (mem_childrenOf hq).2 hk, hsize, htree⟩

/-! ## Ways down -/

/-- A way down from a node of a literal stays in the literal. -/
theorem inert_of_reaches (ha : a.WellFormed) {n c : NodeId} (h : Reaches a n c)
    (hn : Tree.Inert (a.tree (some n))) : Tree.Inert (a.tree (some c)) := by
  induction h with
  | refl => exact hn
  | @tail k c _ hc ih =>
    cases hk : a.content? (some k) with
    | none =>
      rw [childrenOf, hk] at hc
      exact absurd hc List.not_mem_nil
    | some content => exact inert_of_mem_children ha ih hk ((mem_childrenOf hk).1 hc)

section Descent

variable {S T : Type} {inside : S → Payload Ref → S} {inside' : T → Payload Ref → T}

/-- **A way down a rewritten tree goes back to a way down the old tree,** or ends in a literal. What
is around the nodes stays related if every step down keeps it so. -/
theorem descent_kept (ha : a.WellFormed) (hb : b.WellFormed) {R : S → T → Prop}
    (hR : ∀ s t p q, q.map b.tree = p.image (r.image fileName a) → R s t →
      R (inside s p) (inside' t q))
    {y n : NodeId} {t t' : T} (hd : Descent b inside' y t n t') {x : NodeId} {s : S}
    (hy : Kept r fileName a b x y) (hs : R s t) :
    (∃ c s', Descent a inside x s c s' ∧ Kept r fileName a b c n ∧ R s' t') ∨
      Tree.Inert (b.tree (some n)) := by
  induction hd generalizing x s with
  | here => exact .inl ⟨x, s, .here, hy, hs⟩
  | down hq hk hrest ih =>
    obtain ⟨h, p, hp, -, -, hpq⟩ := hy.content? hb hq
    rcases child_kept_or_inert ha hb hq hpq hk with ⟨c, hc, -, hkept⟩ | hinert
    · rcases ih hkept (hR _ _ _ _ hpq hs) with ⟨c', s', hd', hkept', hs'⟩ | hinert
      · exact .inl ⟨c', s', .down hp hc hd', hkept', hs'⟩
      · exact .inr hinert
    · exact .inr (inert_of_reaches hb hrest.reaches hinert)

end Descent

/-- Below a kept node, every node was kept or belongs to a literal. -/
theorem reaches_kept (ha : a.WellFormed) (hb : b.WellFormed) {x y n : NodeId}
    (hy : Kept r fileName a b x y) (h : Reaches b y n) :
    (∃ c, Reaches a x c ∧ Kept r fileName a b c n) ∨ Tree.Inert (b.tree (some n)) := by
  obtain ⟨ds, hds⟩ := exists_around h
  have hway : (∃ c s', Descent a (declaredInside a) x [] c s' ∧ Kept r fileName a b c n ∧ True) ∨
      Tree.Inert (b.tree (some n)) :=
    descent_kept (R := fun _ _ => True) ha hb (fun _ _ _ _ _ _ => trivial) hds hy trivial
  rcases hway with ⟨c, _, hd, hkept, -⟩ | hinert
  · exact .inl ⟨c, hd.reaches, hkept⟩
  · exact .inr hinert

/-- A rewrite comes to the children of a node that is no import and no call. -/
theorem Stands.inside {root n c : NodeId} (h : Stands r fileName a root n)
    (hi : a.kind? (some n) ≠ some (.form .importDeclaration))
    (hm : a.kind? (some n) ≠ some (.form .call)) (hc : c ∈ a.childrenOf (some n)) :
    Stands r fileName a root c := by
  cases hn : a.content? (some n) with
  | none =>
    rw [childrenOf, hn] at hc
    exact absurd hc List.not_mem_nil
  | some content =>
    exact .child h (importsMarkers_of_kind? hi) (markerOf?_of_kind? hm) hn
      ((mem_childrenOf hn).1 hc)

/-- Where a rewrite comes to a node, the rewritten tree holds what has become of it. -/
theorem Stands.exists_reaches (ha : a.WellFormed) (hb : b.WellFormed) {root s top : NodeId}
    (htop : top < b.size) (himage : (r.image fileName a (some root)).slot = b.tree (some top))
    (h : Stands r fileName a root s) {t : Tree} (ht : r.image fileName a (some s) = some (some t)) :
    ∃ y, Reaches b top y ∧ y < b.size ∧ b.tree (some y) = some t := by
  induction h generalizing t with
  | root => exact ⟨top, .refl, htop, by rw [← himage, ht]; rfl⟩
  | @child n c hd p _ hi hm hp hc ih =>
    obtain ⟨u, hu⟩ := exists_image ha (lt_of_content? hp) hi
    obtain ⟨y, hy, hlt, htree⟩ := ih hu
    have hkept := Kept.of_image ha hb hlt hi hm (by rw [hu, htree]; rfl)
    obtain ⟨k, hk, hklt, hktree⟩ := hkept.exists_child hb hp hc ht
    exact ⟨k, hy.tail hk, hklt, hktree⟩

/-! ## Texts -/

theorem kind?_of_importsMarkers {n : Ref} (h : r.importsMarkers a fileName n = true) :
    a.kind? n = some (.form .importDeclaration) := by
  by_contra hk
  rw [importsMarkers_of_kind? hk] at h
  exact Bool.false_ne_true h

theorem kind?_of_markerOf? {n : Ref} {m : Marker} (h : r.markerOf? a fileName n = some m) :
    a.kind? n = some (.form .call) := by
  by_contra hk
  rw [markerOf?_of_kind? hk] at h
  exact Option.some_ne_none m h.symm

/-- An import of the markers holds a specifier. -/
theorem content?_of_importsMarkers {n : Ref} (h : r.importsMarkers a fileName n = true) :
    ∃ hd clause specifier, a.content? n = some (hd, .importDeclaration clause specifier) := by
  cases hs : specifier? a n with
  | none =>
    rw [Reifier.importsMarkers, hs] at h
    exact absurd h Bool.false_ne_true
  | some text =>
    unfold specifier? at hs
    split at hs
    · rename_i hd clause specifier hc
      exact ⟨hd, clause, specifier, hc⟩
    · exact absurd hs.symm (Option.some_ne_none text)

theorem importsMarkers_of_pool {n : NodeId} {h : Header} {p : Payload Ref}
    (hn : a.content? (some n) = some (h, p)) (hp : p.pool ≠ .imports) :
    r.importsMarkers a fileName (some n) = false := by
  refine Bool.eq_false_iff.2 fun himports => ?_
  obtain ⟨hd, clause, specifier, hc⟩ := content?_of_importsMarkers himports
  obtain ⟨rfl, rfl⟩ := Prod.mk.inj (Option.some.inj (hc.symm.trans hn))
  exact hp rfl

theorem noMarker_of_pool {n : NodeId} {h : Header} {p : Payload Ref}
    (hn : a.content? (some n) = some (h, p)) (hp : p.pool ≠ .calls) : NoMarker r fileName a n := by
  refine markerOf?_of_kind? fun hk => hp ?_
  have hpool := pool_of_content? hn
  rw [Arena.kind?, (content?_eq_some.1 hn).1, Option.map_some, Option.some.injEq] at hk
  rw [hk] at hpool
  exact (Option.some.inj hpool).symm

/-- Only names and literals have a text. -/
theorem text_of_form {n : Ref} {f : Form} (h : a.kind? n = some (.form f)) :
    a.identifierText? n = none ∧ a.literalText? n = none := by
  have hpool {hd : Header} {p : Payload Ref} (hc : a.content? n = some (hd, p)) :
      p.pool ≠ .identifiers ∧ p.pool ≠ .literals := by
    have hp := pool_of_content? hc
    rw [Arena.kind?, (content?_eq_some.1 hc).1, Option.map_some, Option.some.injEq] at h
    rw [h] at hp
    rw [← Option.some.inj hp]
    cases f <;> decide
  unfold identifierText? literalText?
  cases hc : a.content? n with
  | none => exact ⟨rfl, rfl⟩
  | some c =>
    obtain ⟨hd, p⟩ := c
    cases p with
    | identifier text => exact absurd rfl (hpool hc).1
    | literal text => exact absurd rfl (hpool hc).2
    | _ => exact ⟨rfl, rfl⟩

/-- A name has become a name, and a literal a literal; nothing else has become one. -/
theorem text_image (ha : a.WellFormed) (n : Ref) :
    Tree.identifierText? (r.image fileName a n).slot = a.identifierText? n ∧
      Tree.literalText? (r.image fileName a n).slot = a.literalText? n := by
  rw [image_eq ha, imageOver_eq]
  cases hi : r.importsMarkers a fileName n with
  | true =>
    have htext := text_of_form (kind?_of_importsMarkers hi)
    rw [if_pos rfl, htext.1, htext.2]
    exact ⟨rfl, rfl⟩
  | false =>
    rw [if_neg Bool.false_ne_true]
    cases hm : r.markerOf? a fileName n with
    | some m =>
      have htext := text_of_form (kind?_of_markerOf? hm)
      rw [htext.1, htext.2]
      cases m with
      | keys => exact ⟨rfl, rfl⟩
      | typeMembers => exact ⟨rfl, rfl⟩
    | none =>
      rw [identifierText?, literalText?, Arena.content?]
      cases a.header? n with
      | none => exact ⟨rfl, rfl⟩
      | some h =>
        simp only [Option.map_some, Option.bind_eq_bind, Option.bind_some]
        cases a.payload? h with
        | none => exact ⟨rfl, rfl⟩
        | some p => cases p <;> exact ⟨rfl, rfl⟩

section Texts

variable (ha : a.WellFormed) (hb : b.WellFormed) {x y : Ref}
  (h : b.tree y = (r.image fileName a x).slot)
include ha hb h

theorem texts_of_image :
    b.identifierText? y = a.identifierText? x ∧ b.literalText? y = a.literalText? x := by
  rw [← (texts_tree hb y).1, ← (texts_tree hb y).2, h]
  exact text_image ha x

end Texts

/-! ## Imports -/

/-- A kept import names the module that the old one names. -/
theorem Kept.importsMarkers (ha : a.WellFormed) (hb : b.WellFormed) {x y : NodeId}
    (h : Kept r fileName a b x y) :
    r.importsMarkers b fileName (some y) = true → r.importsMarkers a fileName (some x) = true := by
  have hs {specifier : String} (hy : specifier? b (some y) = some specifier) :
      specifier? a (some x) = some specifier := by
    unfold specifier? at hy
    split at hy
    · rename_i hd clause spec hq
      obtain ⟨hd', p, hp, -, -, hpq⟩ := h.content? hb hq
      cases p with
      | importDeclaration clause' spec' =>
        have hspec := (Payload.importDeclaration.inj hpq).2
        rw [specifier?, hp]
        exact (texts_of_image ha hb hspec).2.symm.trans hy
      | _ => cases Payload.pool_eq_of_image hpq
    · exact absurd hy.symm (Option.some_ne_none _)
  unfold Reifier.importsMarkers
  cases hy : specifier? b (some y) with
  | none => exact fun hfalse => absurd hfalse Bool.false_ne_true
  | some specifier =>
    rw [hs hy]
    exact id

/-- **No import of the markers is left** below a node that was kept. -/
theorem importsMarkers_child (ha : a.WellFormed) (hb : b.WellFormed) {x y k n : NodeId}
    (hy : Kept r fileName a b x y) (hk : Reaches b y k) (hn : n ∈ b.childrenOf (some k)) :
    r.importsMarkers b fileName (some n) = false := by
  have hinert (h : Tree.Inert (b.tree (some n))) : r.importsMarkers b fileName (some n) = false :=
    importsMarkers_of_kind? (kind?_of_inert hb h).2
  obtain ⟨hd, q, hq, hmem⟩ : ∃ hd q, b.content? (some k) = some (hd, q) ∧ some n ∈ q.children := by
    cases hq : b.content? (some k) with
    | none =>
      rw [childrenOf, hq] at hn
      exact absurd hn List.not_mem_nil
    | some content => exact ⟨content.1, content.2, rfl, (mem_childrenOf hq).1 hn⟩
  rcases reaches_kept ha hb hy hk with ⟨c, -, hkept⟩ | hk
  · obtain ⟨hd', p, hp, -, -, hpq⟩ := hkept.content? hb hq
    rcases child_kept_or_inert ha hb hq hpq hmem with ⟨c', -, hi, hkept'⟩ | h
    · exact Bool.eq_false_iff.2 fun htrue =>
        absurd (hkept'.importsMarkers ha hb htrue) (by rw [hi]; exact Bool.false_ne_true)
    · exact hinert h
  · exact hinert (inert_of_mem_children hb hk hq hmem)

end Reifier

end TypeReify
