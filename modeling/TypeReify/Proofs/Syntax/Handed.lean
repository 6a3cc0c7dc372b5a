import TypeReify.Proofs.Syntax.Appends
import TypeReify.Syntax.Rebuild

/-!
# What a visitor is handed

A rebuild hands the children of a node to a visitor, which answers what stands in their place. The
visitor may keep a state of its own and may append to the arena, so what it does with one child may
depend on the children before it. `Arena.handed` is what a visitor is handed that notes everything
and changes nothing; every other visitor is handed the same.

This is about `visit_each_child`, for any visitor that only appends.

Results:
* `traverse_follows`: on a payload, every visitor is handed what the noting visitor is handed.
* `rebuild_handed`: the visitor is handed the children of the node, and the children of the node
  that is answered are its answers.
-/

namespace TypeReify.Syntax

variable {σ α β γ : Type}

/-- A visitor with a state of its own beside the arena. -/
abbrev Visitor (σ : Type) := Ref → StateT σ Build (Option Ref)

/-- Whatever the visitor does, every header and every payload stays where it was. -/
def Visitor.OnlyAppends (visit : Visitor σ) : Prop := ∀ r s (a : Arena), a.Extends (visit r s a).2

/-- The visitor is handed some children one after the other, and gives these answers. -/
inductive Visited (visit : Visitor σ) :
    σ → Arena → List Ref → List (Option Ref) → σ → Arena → Prop
  | nil {s : σ} {a : Arena} : Visited visit s a [] [] s a
  | cons {s s' s'' : σ} {a b c : Arena} {r : Ref} {rs : List Ref} {out : Option Ref}
      {outs : List (Option Ref)} (hr : visit r s a = ((out, s'), b))
      (hrs : Visited visit s' b rs outs s'' c) : Visited visit s a (r :: rs) (out :: outs) s'' c

/-- Keeps every child, and notes it. -/
def note : Visitor (List Ref) := fun r log a => ((some r, log ++ [r]), a)

/-- The children of a node as they are handed to a visitor. -/
def Arena.handed (a : Arena) (r : Ref) : List Ref := (rebuild note r [] a).1.2

/-- What a payload says besides its children. -/
def Payload.outline (p : Payload α) : Payload Unit :=
  p.traverse (m := Id) (fun _ => ()) (fun _ => [])

/-- An action runs from where the one before it stopped. -/
theorem run_bind {act : StateT σ Build α} {f : α → StateT σ Build β} {s : σ} {a : Arena} :
    (act >>= f) s a = f (act s a).1.1 (act s a).1.2 (act s a).2 :=
  rfl

namespace Visited

variable {visit : Visitor σ} {s s' s'' : σ} {a b c : Arena} {rs rs' : List Ref}
  {outs outs' : List (Option Ref)}

theorem append (h : Visited visit s a rs outs s' b) (h' : Visited visit s' b rs' outs' s'' c) :
    Visited visit s a (rs ++ rs') (outs ++ outs') s'' c := by
  induction h with
  | nil => exact h'
  | cons hr _ ih => exact .cons hr (ih h')

theorem toExtends (hvisit : visit.OnlyAppends) (h : Visited visit s a rs outs s' b) :
    a.Extends b := by
  induction h with
  | nil => exact .refl _
  | @cons s _ _ a _ _ r _ _ _ hr _ ih =>
    have hstep := hvisit r s a
    rw [hr] at hstep
    exact hstep.trans ih

/-- A visitor that keeps every child answers what it is handed. -/
theorem eq_of_keep (h : Visited (fun r => pure (some r)) s a rs outs s' b) :
    outs = rs.map some := by
  induction h with
  | nil => rfl
  | cons hr _ ih =>
    obtain rfl : some _ = _ := congrArg (·.1.1) hr
    rw [List.map_cons, ih]

end Visited

/-! ## A visit of a payload -/

/-- The slots that are not empty. -/
def present (rs : List Ref) : List NodeId := rs.filterMap id

@[simp] theorem present_nil : present [] = [] := rfl

@[simp] theorem present_cons (r : Ref) (rs : List Ref) :
    present (r :: rs) = r.toList ++ present rs := by
  cases r <;> rfl

@[simp] theorem present_append (rs rs' : List Ref) :
    present (rs ++ rs') = present rs ++ present rs' :=
  List.filterMap_append

theorem childrenOf_of_content? {a : Arena} {r : Ref} {h : Header} {p : Payload Ref}
    (hc : a.content? r = some (h, p)) : a.childrenOf r = present p.children := by
  rw [Arena.childrenOf, hc]
  rfl

/-- The first action notes some children, whatever it noted before, and the second one hands these
children to the visitor; its result agrees with the answers. -/
def Follows (visit : Visitor σ) (noting : StateT (List Ref) Build α) (act : StateT σ Build β)
    (post : List (Option Ref) → β → Prop) : Prop :=
  ∀ log a₀ s a, ∃ x rs outs, noting log a₀ = ((x, log ++ rs), a₀) ∧
    Visited visit s a rs outs (act s a).1.2 (act s a).2 ∧ post outs (act s a).1.1

namespace Follows

variable {visit : Visitor σ} {post : List (Option Ref) → γ → Prop}

theorem pure {x : α} {y : γ} (h : post [] y) : Follows visit (Pure.pure x) (Pure.pure y) post :=
  fun log a₀ _ _ => ⟨x, [], [], by rw [List.append_nil]; rfl, .nil, h⟩

theorem bind {noting : StateT (List Ref) Build α} {act : StateT σ Build β}
    {mid : List (Option Ref) → β → Prop} {f : α → StateT (List Ref) Build γ}
    {g : β → StateT σ Build γ} (h : Follows visit noting act mid)
    (hf : ∀ x y, Follows visit (f x) (g y) fun outs z => ∀ before, mid before y →
      post (before ++ outs) z) : Follows visit (noting >>= f) (act >>= g) post := by
  intro log a₀ s a
  obtain ⟨x, rs, outs, hnoting, hvisited, hmid⟩ := h log a₀ s a
  obtain ⟨x', rs', outs', hnoting', hvisited', hpost⟩ :=
    hf x (act s a).1.1 (log ++ rs) a₀ (act s a).1.2 (act s a).2
  refine ⟨x', rs ++ rs', outs ++ outs', ?_, hvisited.append hvisited', hpost outs hmid⟩
  rw [run_bind, hnoting, ← List.append_assoc]
  exact hnoting'

theorem slot (r : Ref) : Follows visit (visitSlot note r) (visitSlot visit r)
    fun outs y => y.toList = outs.filterMap Option.join := by
  cases r with
  | none => exact .pure rfl
  | some i =>
    refine fun log a₀ s a => ⟨some i, [some i], [(visit (some i) s a).1.1], rfl, .cons rfl .nil, ?_⟩
    show ((visit (some i) s a).1.1.getD none).toList = _
    cases (visit (some i) s a).1.1 with
    | none => rfl
    | some y => cases y <;> rfl

theorem list (rs : List Ref) : Follows visit (visitList note rs) (visitList visit rs)
    fun outs ys => present ys = outs.filterMap Option.join := by
  induction rs with
  | nil => exact .pure rfl
  | cons r rs ih =>
    have hvisit : Follows visit (note r) (visit r) fun outs y => outs = [y] :=
      fun log a₀ s a => ⟨some r, [r], [(visit r s a).1.1], rfl, .cons rfl .nil, rfl⟩
    refine hvisit.bind fun _ y => ih.bind fun _ ys => .pure ?_
    rintro outs hys _ rfl
    cases y with
    | none => simpa using hys
    | some y => cases y <;> simpa using hys

theorem optional (o : Option (List Ref)) : Follows visit
    (Payload.traverseOptional (visitList note) o) (Payload.traverseOptional (visitList visit) o)
    fun outs o' => present (o'.getD []) = outs.filterMap Option.join ∧
      o'.map (fun _ => ([] : List Unit)) = o.map fun _ => [] := by
  cases o with
  | none => exact .pure ⟨rfl, rfl⟩
  | some rs =>
    have hbind (σ : Type) (visit : Visitor σ) :
      Payload.traverseOptional (visitList visit) (some rs) =
        visitList visit rs >>= fun ys => Pure.pure (some ys) := rfl
    rw [hbind, hbind]
    exact (list rs).bind fun _ ys => .pure fun outs hys => ⟨by simpa using hys, rfl⟩

end Follows

/-- **On a payload, every visitor is handed the same children**: those that are noted. The answers
are the children of the payload it leaves, which else stays what it was. -/
theorem traverse_follows (visit : Visitor σ) (p : Payload Ref) : Follows visit
    (p.traverse (visitSlot note) (visitList note)) (p.traverse (visitSlot visit) (visitList visit))
    fun outs q => present q.children = outs.filterMap Option.join ∧ q.outline = p.outline := by
  have houtline (o : Option (List Ref)) :
      Payload.traverseOptional (m := Id) (fun _ : List Ref => ([] : List Unit)) o =
        o.map fun _ => [] := by
    cases o <;> rfl
  cases p with
  | identifier _ | literal _ => exact .pure ⟨rfl, rfl⟩
  | parenthesized x | expressionStatement x | arrayType x | literalType x =>
    refine (Follows.slot x).bind fun _ x' => .pure fun _ hx => ?_
    exact ⟨by simp [Payload.children, hx], rfl⟩
  | access x y | assignment x y | binary x _ y | importDeclaration x y | importClause x y
  | importSpecifier x y | mappedType x y =>
    refine (Follows.slot x).bind fun _ x' => (Follows.slot y).bind fun _ y' =>
      .pure fun _ hy _ hx => ?_
    exact ⟨by simp [Payload.children, hx, hy], rfl⟩
  | parameter x y z | typeParameter x y z | ifStatement x y z | variableDeclaration x y z =>
    refine (Follows.slot x).bind fun _ x' => (Follows.slot y).bind fun _ y' =>
      (Follows.slot z).bind fun _ z' => .pure fun _ hz _ hy _ hx => ?_
    exact ⟨by simp [Payload.children, hx, hy, hz], rfl⟩
  | elements xs | block xs | variableStatement xs | union xs | typeLiteral xs | sourceFile _ xs =>
    refine (Follows.list xs).bind fun _ xs' => .pure fun _ hxs => ?_
    exact ⟨by simp [Payload.children, hxs], rfl⟩
  | importBindings x xs =>
    refine (Follows.slot x).bind fun _ x' => (Follows.list xs).bind fun _ xs' =>
      .pure fun _ hxs _ hx => ?_
    exact ⟨by simp [Payload.children, hx, hxs], rfl⟩
  | typeReference x o =>
    refine (Follows.slot x).bind fun _ x' => (Follows.optional o).bind fun _ o' =>
      .pure fun _ ho _ hx => ?_
    exact ⟨by simp [Payload.children, hx, ho.1],
      by simp only [Payload.outline, Payload.traverse, houtline, ho.2]⟩
  | call x o xs =>
    refine (Follows.slot x).bind fun _ x' => (Follows.optional o).bind fun _ o' =>
      (Follows.list xs).bind fun _ xs' => .pure fun _ hxs _ ho _ hx => ?_
    exact ⟨by simp [Payload.children, hx, ho.1, hxs],
      by simp only [Payload.outline, Payload.traverse, houtline, ho.2]⟩
  | function x o xs y z =>
    refine (Follows.slot x).bind fun _ x' => (Follows.optional o).bind fun _ o' =>
      (Follows.list xs).bind fun _ xs' => (Follows.slot y).bind fun _ y' =>
        (Follows.slot z).bind fun _ z' => .pure fun _ hz _ hy _ hxs _ ho _ hx => ?_
    exact ⟨by simp [Payload.children, hx, ho.1, hxs, hy, hz],
      by simp only [Payload.outline, Payload.traverse, houtline, ho.2]⟩
  | signature x o o' y =>
    refine (Follows.slot x).bind fun _ x' => (Follows.optional o).bind fun _ o₁ =>
      (Follows.optional o').bind fun _ o₂ => (Follows.slot y).bind fun _ y' =>
        .pure fun _ hy _ ho' _ ho _ hx => ?_
    exact ⟨by simp [Payload.children, hx, ho.1, ho'.1, hy],
      by simp only [Payload.outline, Payload.traverse, houtline, ho.2, ho'.2]⟩
  | indexSignature xs y =>
    refine (Follows.list xs).bind fun _ xs' => (Follows.slot y).bind fun _ y' =>
      .pure fun _ hy _ hxs => ?_
    exact ⟨by simp [Payload.children, hxs, hy], rfl⟩
  | functionType o xs y =>
    refine (Follows.optional o).bind fun _ o' => (Follows.list xs).bind fun _ xs' =>
      (Follows.slot y).bind fun _ y' => .pure fun _ hy _ hxs _ ho => ?_
    exact ⟨by simp [Payload.children, ho.1, hxs, hy],
      by simp only [Payload.outline, Payload.traverse, houtline, ho.2]⟩
  | interface x o o' xs =>
    refine (Follows.slot x).bind fun _ x' => (Follows.optional o).bind fun _ o₁ =>
      (Follows.optional o').bind fun _ o₂ => (Follows.list xs).bind fun _ xs' =>
        .pure fun _ hxs _ ho' _ ho _ hx => ?_
    exact ⟨by simp [Payload.children, hx, ho.1, ho'.1, hxs],
      by simp only [Payload.outline, Payload.traverse, houtline, ho.2, ho'.2]⟩
  | typeAlias x o y =>
    refine (Follows.slot x).bind fun _ x' => (Follows.optional o).bind fun _ o' =>
      (Follows.slot y).bind fun _ y' => .pure fun _ hy _ ho _ hx => ?_
    exact ⟨by simp [Payload.children, hx, ho.1, hy],
      by simp only [Payload.outline, Payload.traverse, houtline, ho.2]⟩

/-! ## A visit of a node -/

theorem pool_outline (p : Payload Ref) : p.outline.pool = p.pool := by
  cases p <;> rfl

section Rebuild

variable {visit : Visitor σ} {s : σ} {a : Arena} {r : Ref}

/-- A visit of a node reads the arena once, before the visitor runs. -/
theorem rebuild_run : rebuild visit r s a =
    (match a.content? r with
      | none => (pure r : StateT σ Build Ref)
      | some (h, old) => do
        let new ← old.traverse (visitSlot visit) (visitList visit)
        if new = old then return r else return some (← modifyGetThe Arena (·.pushRebuilt h new))) s
          a :=
  rfl

theorem rebuild_run_of_none (h : a.content? r = none) : rebuild visit r s a = ((r, s), a) := by
  rw [rebuild_run, h]
  rfl

theorem rebuild_run_of_some {h : Header} {p new : Payload Ref} {s' : σ} {b : Arena}
    (hc : a.content? r = some (h, p))
    (hnew : p.traverse (visitSlot visit) (visitList visit) s a = ((new, s'), b)) :
    rebuild visit r s a = if new = p then ((r, s'), b)
      else ((some (b.pushRebuilt h new).1, s'), (b.pushRebuilt h new).2) := by
  rw [rebuild_run, hc]
  dsimp only
  rw [run_bind, hnew]
  split <;> rfl

end Rebuild

theorem handed_of_some {a : Arena} {r : Ref} {h : Header} {p x : Payload Ref} {rs : List Ref}
    (hc : a.content? r = some (h, p))
    (hrun : p.traverse (visitSlot note) (visitList note) [] a = ((x, rs), a)) :
      a.handed r = rs := by
  rw [Arena.handed, rebuild_run_of_some hc hrun]
  split <;> rfl

/-- What a visitor is handed, empty elements of lists left out, are the children of the node. -/
theorem filterMap_handed (a : Arena) (r : Ref) : (a.handed r).filterMap id = a.childrenOf r := by
  cases hc : a.content? r with
  | none =>
    rw [Arena.handed, rebuild_run_of_none hc, Arena.childrenOf, hc]
    rfl
  | some c =>
    obtain ⟨h, p⟩ := c
    have hslot : visitSlot (m := StateT Unit Build) (fun r => pure (some r)) = pure :=
      funext visitSlot_keep
    have hlist : visitList (m := StateT Unit Build) (fun r => pure (some r)) = pure :=
      funext visitList_keep
    obtain ⟨x, rs, outs, hrun, hvisited, hpost⟩ :=
      traverse_follows (σ := Unit) (fun r => pure (some r)) p [] a () a
    rw [hslot, hlist, traverse_pure] at hvisited hpost
    obtain rfl := hvisited.eq_of_keep
    have hchildren : present p.children = (rs.map some).filterMap Option.join := hpost.1
    rw [handed_of_some hc hrun, List.nil_append, childrenOf_of_content? hc, hchildren,
      List.filterMap_map]
    rfl

/-- **A rebuild hands the children of a node to the visitor**, in their order, and empty elements of
lists besides. Whatever the visitor appends, its answers are the children of the node that is
answered, erased and empty ones left out, and nothing else of the node has changed. -/
theorem rebuild_handed {visit : Visitor σ} (hvisit : visit.OnlyAppends) (s : σ)
    (a : Arena) (r : Ref) :
    ∃ outs s' b r' c, rebuild visit r s a = ((r', s'), c) ∧
      Visited visit s a (a.handed r) outs s' b ∧ b.Extends c ∧
      (a.handed r).filterMap id = a.childrenOf r ∧
      c.childrenOf r' = outs.filterMap Option.join ∧
      (∃ d, c.header? r' = (a.header? r).map fun h => { h with data := d }) ∧
      (c.content? r').map (·.2.outline) = (a.content? r).map (·.2.outline) := by
  cases hc : a.content? r with
  | none =>
    have hhanded : a.handed r = [] := by rw [Arena.handed, rebuild_run_of_none hc]
    have hchildren : a.childrenOf r = [] := by rw [Arena.childrenOf, hc]
    rw [hhanded, hchildren]
    refine ⟨[], s, a, r, a, rebuild_run_of_none hc, .nil, .refl a, rfl, hchildren, ?_, by rw [hc]⟩
    cases hh : a.header? r with
    | none => exact ⟨none, rfl⟩
    | some h => exact ⟨h.data, rfl⟩
  | some content =>
    obtain ⟨h, p⟩ := content
    obtain ⟨x, rs, outs, hrun, hvisited, hchildren, houtline⟩ := traverse_follows visit p [] a s a
    have hhanded : a.handed r = rs := handed_of_some hc hrun
    rcases hnew : p.traverse (visitSlot visit) (visitList visit) s a with ⟨⟨new, s'⟩, b⟩
    rw [hnew] at hvisited hchildren houtline
    have hheader := (Arena.content?_eq_some.1 hc).1
    rw [rebuild_run_of_some hc hnew, filterMap_handed, hhanded]
    by_cases hsame : new = p
    · have hkept := (hvisited.toExtends hvisit).content?_of_some hc
      refine ⟨outs, s', b, r, b, if_pos hsame, hvisited, .refl b, rfl, ?_, ⟨h.data, ?_⟩, ?_⟩
      · rw [childrenOf_of_content? hkept, ← hchildren, hsame]
      · rw [(Arena.content?_eq_some.1 hkept).1, hheader]
        rfl
      · rw [hkept]
    · have hpool : h.kind.pool? = some new.pool := by
        rw [Arena.pool_of_content? hc, ← pool_outline p, ← pool_outline new, houtline]
      have hpushed := Arena.content?_pushRebuilt b hpool
      refine ⟨outs, s', b, _, _, if_neg hsame, hvisited, Arena.extends_pushRebuilt b h new, rfl, ?_,
        ⟨some (b.entries new.pool).size, ?_⟩, ?_⟩
      · exact (childrenOf_of_content? hpushed).trans hchildren
      · rw [hheader]
        exact Arena.header?_pushRebuilt b h new
      · rw [show (b.pushRebuilt h new).1 = b.size from rfl, hpushed]
        exact congrArg some houtline

/-- Puts a new name in the place of every other child, and erases the ones between. -/
def alternate : Visitor Bool := fun _ keep a =>
  if keep then ((some (some (Build.identifier "fresh" a).1), false), (Build.identifier "fresh" a).2)
  else ((none, true), a)

theorem alternate_onlyAppends : alternate.OnlyAppends := by
  intro r keep a
  cases keep with
  | false => exact .refl a
  | true =>
    exact Arena.extends_pushRebuilt a (.fresh (.token .identifier) none) (.identifier "fresh")

/-- The elements of a list with a hole in it. -/
def listWithHole : Arena :=
  (do let x ← Build.identifier "x"
      let y ← Build.identifier "y"
      Build.arrayLiteral [some x, none, some y] : Build NodeId) .empty |>.2

/-- The hole is handed over too. The first name and the last one are replaced. -/
theorem rebuild_handed_alternate :
    alternate.OnlyAppends ∧ listWithHole.handed (some 2) = [some 0, none, some 1] ∧
    ∃ outs s' b r' c, rebuild alternate (some 2) true listWithHole = ((r', s'), c) ∧
      Visited alternate true listWithHole (listWithHole.handed (some 2)) outs s' b ∧ b.Extends c ∧
      (listWithHole.handed (some 2)).filterMap id = listWithHole.childrenOf (some 2) ∧
      c.childrenOf r' = outs.filterMap Option.join ∧
      (∃ d, c.header? r' = (listWithHole.header? (some 2)).map fun h => { h with data := d }) ∧
      (c.content? r').map (·.2.outline) = (listWithHole.content? (some 2)).map (·.2.outline) :=
  have happends := alternate_onlyAppends
  ⟨happends, by decide, rebuild_handed happends true listWithHole (some 2)⟩

example : (rebuild alternate (some 2) true listWithHole).2.childrenOf (some 5) = [3, 4] := by decide

end TypeReify.Syntax
