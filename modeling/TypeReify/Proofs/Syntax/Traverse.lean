import TypeReify.Proofs.Yields
import TypeReify.Syntax.Payload

/-!
# Visiting a payload on a growing state

A visit of a payload goes through its slots and lists one after the other, and the state may grow at
every step. Where each slot and each list gives what a pure function says, as the state then shows
it, the whole payload does.

In the source these visits are the arms of `visit_each_child`, one for each record of a payload.

Results:
* `traverse_yields`: a visit of a payload is a map, seen through the state it leaves.
* `traverse_agrees`: two visits do the same if they do the same with every part.
* `traverse_id_congr`: a pure visit only depends on the children.
-/

namespace TypeReify.Syntax.Payload

variable {σ α β γ : Type}

section Pure

variable {slot slot' : α → β} {list list' : List α → List β}

/-- A pure visit only depends on what becomes of the children. -/
theorem traverse_id_congr {p : Payload α} (hslot : ∀ x ∈ p.children, slot x = slot' x)
    (hlist : ∀ xs, (∀ x ∈ xs, x ∈ p.children) → list xs = list' xs) :
    p.traverse (m := Id) slot list = p.traverse (m := Id) slot' list' := by
  have hopt : ∀ o : Option (List α), (∀ x ∈ o.getD [], x ∈ p.children) →
      traverseOptional (m := Id) list o = traverseOptional (m := Id) list' o := by
    intro o ho
    cases o with
    | none => rfl
    | some xs => exact congrArg some (hlist xs ho)
  cases p with
  | identifier _ | literal _ => rfl
  | parenthesized x | expressionStatement x | arrayType x | literalType x =>
    simp [traverse, hslot x (by simp [children])]
  | access x y | assignment x y | binary x _ y | importDeclaration x y | importClause x y
  | importSpecifier x y | mappedType x y =>
    simp [traverse, hslot x (by simp [children]), hslot y (by simp [children])]
  | parameter x y z | typeParameter x y z | ifStatement x y z | variableDeclaration x y z =>
    simp [traverse, hslot x (by simp [children]), hslot y (by simp [children]),
      hslot z (by simp [children])]
  | elements xs | block xs | variableStatement xs | union xs | typeLiteral xs | sourceFile _ xs =>
    simp [traverse, hlist xs (by simp [children])]
  | importBindings x xs =>
    simp [traverse, hslot x (by simp [children]), hlist xs (by simp +contextual [children])]
  | typeReference x o =>
    simp [traverse, hslot x (by simp [children]), hopt o (by simp +contextual [children])]
  | call x o xs =>
    simp [traverse, hslot x (by simp [children]), hopt o (by simp +contextual [children]),
      hlist xs (by simp +contextual [children])]
  | function x o xs y z =>
    simp [traverse, hslot x (by simp [children]), hopt o (by simp +contextual [children]),
      hlist xs (by simp +contextual [children]), hslot y (by simp [children]),
      hslot z (by simp [children])]
  | signature x o o' y =>
    simp [traverse, hslot x (by simp [children]), hopt o (by simp +contextual [children]),
      hopt o' (by simp +contextual [children]), hslot y (by simp [children])]
  | indexSignature xs y =>
    simp [traverse, hlist xs (by simp +contextual [children]), hslot y (by simp [children])]
  | functionType o xs y =>
    simp [traverse, hopt o (by simp +contextual [children]),
      hlist xs (by simp +contextual [children]), hslot y (by simp [children])]
  | interface x o o' xs =>
    simp [traverse, hslot x (by simp [children]), hopt o (by simp +contextual [children]),
      hopt o' (by simp +contextual [children]), hlist xs (by simp +contextual [children])]
  | typeAlias x o y =>
    simp [traverse, hslot x (by simp [children]), hopt o (by simp +contextual [children]),
      hslot y (by simp [children])]

theorem map_congr {f g : α → β} {p : Payload α} (h : ∀ x ∈ p.children, f x = g x) :
    p.map f = p.map g :=
  traverse_id_congr h fun _ hxs => List.map_congr_left fun x hx => h x (hxs x hx)

end Pure

section Growing

variable {le : σ → σ → Prop} [IsPreorder σ le] {Valid : σ → β → Prop} {view : σ → β → γ}

/-- A visit of a payload is a map, seen through the state it leaves. -/
theorem traverse_yields {s : σ} {slot : α → StateM σ β} {list : List α → StateM σ (List β)}
    {slot' : α → γ} {list' : List α → List γ} (p : Payload α)
    (lasts : ∀ t u y, le t u → Valid t y → Valid u y ∧ view u y = view t y)
    (hslot : ∀ x ∈ p.children, ∀ t, le s t →
      Yields le t (slot x) fun u y => Valid u y ∧ view u y = slot' x)
    (hlist : ∀ xs, (∀ x ∈ xs, x ∈ p.children) → ∀ t, le s t →
      Yields le t (list xs) fun u ys => (∀ y ∈ ys, Valid u y) ∧ ys.map (view u) = list' xs) :
    Yields le s (p.traverse slot list) fun u q =>
      (∀ y ∈ q.children, Valid u y) ∧ q.map (view u) = p.traverse (m := Id) slot' list' := by
  have lastsAll : ∀ t u (ys : List β) zs, le t u → (∀ y ∈ ys, Valid t y) ∧ ys.map (view t) = zs →
      (∀ y ∈ ys, Valid u y) ∧ ys.map (view u) = zs := by
    rintro t u ys zs htu ⟨hys, rfl⟩
    exact ⟨fun y hy => (lasts t u y htu (hys y hy)).1,
      List.map_congr_left fun y hy => (lasts t u y htu (hys y hy)).2⟩
  -- One lemma for each kind of part: its answer is known again once the parts behind it are
  -- visited.
  have slotThen {t : σ} {x : α} {f : β → StateM σ (Payload β)} {post : σ → Payload β → Prop}
      (hx : x ∈ p.children) (ht : le s t) (hf : ∀ u y, le s u → Yields le u (f y) fun v q =>
        Valid v y ∧ view v y = slot' x → post v q) : Yields le t (slot x >>= f) post := by
    refine (hslot x hx t ht).bind ?_ fun u y hu _ => hf u y (trans_of le ht hu)
    intro u v y huv hy
    obtain ⟨hvalid, hview⟩ := lasts u v y huv hy.1
    exact ⟨hvalid, hview.trans hy.2⟩
  have listThen {t : σ} {xs : List α} {f : List β → StateM σ (Payload β)}
      {post : σ → Payload β → Prop} (hxs : ∀ x ∈ xs, x ∈ p.children) (ht : le s t)
      (hf : ∀ u ys, le s u → Yields le u (f ys) fun v q =>
        (∀ y ∈ ys, Valid v y) ∧ ys.map (view v) = list' xs → post v q) :
      Yields le t (list xs >>= f) post :=
    (hlist xs hxs t ht).bind (fun u v ys huv hys => lastsAll u v ys _ huv hys)
      fun u ys hu _ => hf u ys (trans_of le ht hu)
  have optionalThen {t : σ} {o : Option (List α)} {f : Option (List β) → StateM σ (Payload β)}
      {post : σ → Payload β → Prop} (ho : ∀ x ∈ o.getD [], x ∈ p.children) (ht : le s t)
      (hf : ∀ u o', le s u → Yields le u (f o') fun v q => (∀ y ∈ o'.getD [], Valid v y) ∧
        traverseOptional (m := Id) (List.map (view v)) o' = traverseOptional (m := Id) list' o →
          post v q) :
      Yields le t (traverseOptional list o >>= f) post := by
    cases o with
    | none => exact (hf t none ht).mono fun v q _ h => h ⟨by simp, rfl⟩
    | some xs =>
      have hbind : traverseOptional list (some xs) >>= f = list xs >>= fun ys => f (some ys) := rfl
      rw [hbind]
      refine listThen ho ht fun u ys hu => (hf u (some ys) hu).mono fun v q _ h hys => h ⟨hys.1, ?_⟩
      exact congrArg some hys.2
  have h0 : le s s := refl s
  cases p with
  | identifier _ | literal _ => exact .pure ⟨by simp [children], rfl⟩
  | parenthesized x | expressionStatement x | arrayType x | literalType x =>
    refine slotThen (by simp [children]) h0 fun t x' ht => .pure fun hx => ?_
    simp [children, map, traverse, hx]
  | access x y | assignment x y | binary x _ y | importDeclaration x y | importClause x y
  | importSpecifier x y | mappedType x y =>
    refine slotThen (by simp [children]) h0 fun t x' ht => ?_
    refine slotThen (by simp [children]) ht fun u y' hu => .pure fun hy hx => ?_
    simp [children, map, traverse, hx, hy]
  | parameter x y z | typeParameter x y z | ifStatement x y z | variableDeclaration x y z =>
    refine slotThen (by simp [children]) h0 fun t x' ht => ?_
    refine slotThen (by simp [children]) ht fun u y' hu => ?_
    refine slotThen (by simp [children]) hu fun v z' hv => .pure fun hz hy hx => ?_
    simp [children, map, traverse, hx, hy, hz]
  | elements xs | block xs | variableStatement xs | union xs | typeLiteral xs | sourceFile _ xs =>
    refine listThen (by simp [children]) h0 fun t xs' ht => .pure fun hxs => ?_
    simpa [children, map, traverse, hxs.2] using hxs.1
  | importBindings x xs =>
    refine slotThen (by simp [children]) h0 fun t x' ht => ?_
    refine listThen (by simp +contextual [children]) ht fun u xs' hu => .pure fun hxs hx => ?_
    simpa [children, map, traverse, hx, hxs.2] using hxs.1
  | typeReference x o =>
    refine slotThen (by simp [children]) h0 fun t x' ht => ?_
    refine optionalThen (by simp +contextual [children]) ht fun u o' hu => .pure fun ho hx => ?_
    simpa [children, map, traverse, hx, ho.2] using ho.1
  | call x o xs =>
    refine slotThen (by simp [children]) h0 fun t x' ht => ?_
    refine optionalThen (by simp +contextual [children]) ht fun u o' hu => ?_
    refine listThen (by simp +contextual [children]) hu fun v xs' hv => .pure fun hxs ho hx => ?_
    simp [children, map, traverse, hx, ho.2, hxs.2, or_imp, forall_and]
    exact ⟨ho.1, hxs.1⟩
  | function x o xs y z =>
    refine slotThen (by simp [children]) h0 fun t x' ht => ?_
    refine optionalThen (by simp +contextual [children]) ht fun u o' hu => ?_
    refine listThen (by simp +contextual [children]) hu fun v xs' hv => ?_
    refine slotThen (by simp [children]) hv fun w y' hw => ?_
    refine slotThen (by simp [children]) hw fun _ z' _ => .pure fun hz hy hxs ho hx => ?_
    simp [children, map, traverse, hx, ho.2, hxs.2, hy, hz, or_imp, forall_and]
    exact ⟨ho.1, hxs.1⟩
  | signature x o o' y =>
    refine slotThen (by simp [children]) h0 fun t x' ht => ?_
    refine optionalThen (by simp +contextual [children]) ht fun u _ hu => ?_
    refine optionalThen (by simp +contextual [children]) hu fun v _ hv => ?_
    refine slotThen (by simp [children]) hv fun w y' hw => .pure fun hy ho' ho hx => ?_
    simp [children, map, traverse, hx, ho.2, ho'.2, hy, or_imp, forall_and]
    exact ⟨ho.1, ho'.1⟩
  | indexSignature xs y =>
    refine listThen (by simp +contextual [children]) h0 fun t xs' ht => ?_
    refine slotThen (by simp [children]) ht fun u y' hu => .pure fun hy hxs => ?_
    simp [children, map, traverse, hxs.2, hy, or_imp, forall_and]
    exact hxs.1
  | functionType o xs y =>
    refine optionalThen (by simp +contextual [children]) h0 fun t o' ht => ?_
    refine listThen (by simp +contextual [children]) ht fun u xs' hu => ?_
    refine slotThen (by simp [children]) hu fun v y' hv => .pure fun hy hxs ho => ?_
    simp [children, map, traverse, ho.2, hxs.2, hy, or_imp, forall_and]
    exact ⟨ho.1, hxs.1⟩
  | interface x o o' xs =>
    refine slotThen (by simp [children]) h0 fun t x' ht => ?_
    refine optionalThen (by simp +contextual [children]) ht fun u _ hu => ?_
    refine optionalThen (by simp +contextual [children]) hu fun v _ hv => ?_
    refine listThen (by simp +contextual [children]) hv fun w xs' hw => .pure
      fun hxs ho' ho hx => ?_
    simp [children, map, traverse, hx, ho.2, ho'.2, hxs.2, or_imp, forall_and]
    exact ⟨ho.1, ho'.1, hxs.1⟩
  | typeAlias x o y =>
    refine slotThen (by simp [children]) h0 fun t x' ht => ?_
    refine optionalThen (by simp +contextual [children]) ht fun u o' hu => ?_
    refine slotThen (by simp [children]) hu fun v y' hv => .pure fun hy ho hx => ?_
    simp [children, map, traverse, hx, ho.2, hy, or_imp, forall_and]
    exact ho.1

/-- Two visits of a payload do the same if they do the same with its parts. -/
theorem traverse_agrees {s : σ} {slot slot' : α → StateM σ β}
    {list list' : List α → StateM σ (List β)}
    (p : Payload α) (hslot : ∀ x ∈ p.children, ∀ t, le s t → Agrees le t (slot x) (slot' x))
    (hlist : ∀ xs, (∀ x ∈ xs, x ∈ p.children) → ∀ t, le s t → Agrees le t (list xs) (list' xs)) :
    Agrees le s (p.traverse slot list) (p.traverse slot' list') := by
  -- A visit is a chain of slots and lists, each from where the one before has ended.
  have pure {t : σ} (q : Payload β) : Agrees le t (Pure.pure q) (Pure.pure q) := .refl (refl t)
  have slotThen {t : σ} {x : α} {f f' : β → StateM σ (Payload β)} (hx : x ∈ p.children)
    (ht : le s t)
      (hf : ∀ u y, le s u → Agrees le u (f y) (f' y)) :
      Agrees le t (slot x >>= f) (slot' x >>= f') :=
    (hslot x hx t ht).bind fun u y hu => hf u y (trans_of le ht hu)
  have listThen {t : σ} {xs : List α} {f f' : List β → StateM σ (Payload β)}
      (hxs : ∀ x ∈ xs, x ∈ p.children) (ht : le s t)
      (hf : ∀ u ys, le s u → Agrees le u (f ys) (f' ys)) :
      Agrees le t (list xs >>= f) (list' xs >>= f') :=
    (hlist xs hxs t ht).bind fun u ys hu => hf u ys (trans_of le ht hu)
  have optionalThen {t : σ} {o : Option (List α)} {f f' : Option (List β) → StateM σ (Payload β)}
      (ho : ∀ x ∈ o.getD [], x ∈ p.children) (ht : le s t)
      (hf : ∀ u o', le s u → Agrees le u (f o') (f' o')) :
      Agrees le t (traverseOptional list o >>= f) (traverseOptional list' o >>= f') := by
    cases o with
    | none => exact hf t none ht
    | some xs => exact listThen ho ht fun u ys hu => hf u (some ys) hu
  have h0 : le s s := refl s
  cases p with
  | identifier _ | literal _ => exact pure _
  | parenthesized x | expressionStatement x | arrayType x | literalType x =>
    exact slotThen (by simp [children]) h0 fun t x' ht => pure _
  | access x y | assignment x y | binary x _ y | importDeclaration x y | importClause x y
  | importSpecifier x y | mappedType x y =>
    refine slotThen (by simp [children]) h0 fun t x' ht => ?_
    exact slotThen (by simp [children]) ht fun u y' hu => pure _
  | parameter x y z | typeParameter x y z | ifStatement x y z | variableDeclaration x y z =>
    refine slotThen (by simp [children]) h0 fun t x' ht => ?_
    refine slotThen (by simp [children]) ht fun u y' hu => ?_
    exact slotThen (by simp [children]) hu fun v z' hv => pure _
  | elements xs | block xs | variableStatement xs | union xs | typeLiteral xs | sourceFile _ xs =>
    exact listThen (by simp [children]) h0 fun t xs' ht => pure _
  | importBindings x xs =>
    refine slotThen (by simp [children]) h0 fun t x' ht => ?_
    exact listThen (by simp +contextual [children]) ht fun u xs' hu => pure _
  | typeReference x o =>
    refine slotThen (by simp [children]) h0 fun t x' ht => ?_
    exact optionalThen (by simp +contextual [children]) ht fun u o' hu => pure _
  | call x o xs =>
    refine slotThen (by simp [children]) h0 fun t x' ht => ?_
    refine optionalThen (by simp +contextual [children]) ht fun u o' hu => ?_
    exact listThen (by simp +contextual [children]) hu fun v xs' hv => pure _
  | function x o xs y z =>
    refine slotThen (by simp [children]) h0 fun t x' ht => ?_
    refine optionalThen (by simp +contextual [children]) ht fun u o' hu => ?_
    refine listThen (by simp +contextual [children]) hu fun v xs' hv => ?_
    refine slotThen (by simp [children]) hv fun w y' hw => ?_
    exact slotThen (by simp [children]) hw fun _ z' _ => pure _
  | signature x o o' y =>
    refine slotThen (by simp [children]) h0 fun t x' ht => ?_
    refine optionalThen (by simp +contextual [children]) ht fun u _ hu => ?_
    refine optionalThen (by simp +contextual [children]) hu fun v _ hv => ?_
    exact slotThen (by simp [children]) hv fun w y' hw => pure _
  | indexSignature xs y =>
    refine listThen (by simp +contextual [children]) h0 fun t xs' ht => ?_
    exact slotThen (by simp [children]) ht fun u y' hu => pure _
  | functionType o xs y =>
    refine optionalThen (by simp +contextual [children]) h0 fun t o' ht => ?_
    refine listThen (by simp +contextual [children]) ht fun u xs' hu => ?_
    exact slotThen (by simp [children]) hu fun v y' hv => pure _
  | interface x o o' xs =>
    refine slotThen (by simp [children]) h0 fun t x' ht => ?_
    refine optionalThen (by simp +contextual [children]) ht fun u _ hu => ?_
    refine optionalThen (by simp +contextual [children]) hu fun v _ hv => ?_
    exact listThen (by simp +contextual [children]) hv fun w xs' hw => pure _
  | typeAlias x o y =>
    refine slotThen (by simp [children]) h0 fun t x' ht => ?_
    refine optionalThen (by simp +contextual [children]) ht fun u o' hu => ?_
    exact slotThen (by simp [children]) hu fun v y' hv => pure _

end Growing

end TypeReify.Syntax.Payload
