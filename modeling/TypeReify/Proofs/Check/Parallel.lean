import TypeReify.Proofs.Check.Alike

/-!
# Two runs of the checker

Two actions that are run from alike states are followed together, step by step (`Parallel`). Both
only add to what their state says, so what was the same once stays the same.

The actions are those that the functions below `resolve_type` have in common: `intern`, `union`,
`declare`, and the writing of the tables.

Results:
* `Parallel.bind` and its like: what holds of two actions and of what comes after them.
* `Parallel.intern` and its like: the basic actions lead from alike states to alike states.
* `Parallel.widen`: so does recording the type of an optional property, if only one side is strict.
-/

namespace TypeReify.Check

open Syntax Scope
open TypeReify.Types

variable {α β γ δ : Type} {strict : Bool} {st st' : State}

/-- Run from `st` and `st'`, both actions only add, they leave alike states, and their answers fit
there. -/
structure Parallel (strict : Bool) (st st' : State) (act : Checking α) (act' : Checking β)
    (post : State → State → α → β → Prop) : Prop where
  left : st.Within (act st).2
  right : st'.Within (act' st').2
  alike : (act st).2.Alike strict (act' st').2
  post : post (act st).2 (act' st').2 (act st).1 (act' st').1

namespace Parallel

variable {act : Checking α} {act' : Checking β} {mid : State → State → α → β → Prop}

theorem pure {x : α} {x' : β} {post : State → State → α → β → Prop} (h : st.Alike strict st')
    (hpost : post st st' x x') : Parallel strict st st' (Pure.pure x) (Pure.pure x') post :=
  ⟨refl st, refl st', h, hpost⟩

theorem of_run {t t' : State} {x : α} {x' : β} {post : State → State → α → β → Prop}
    (hrun : act st = (x, t)) (hrun' : act' st' = (x', t')) (hst : st.Within t)
    (hst' : st'.Within t')
    (halike : t.Alike strict t') (hpost : post t t' x x') : Parallel strict st st' act act' post :=
  ⟨by rw [hrun]; exact hst, by rw [hrun']; exact hst', by rw [hrun, hrun']; exact halike,
    by rw [hrun, hrun']; exact hpost⟩

/-- What comes after two actions is run from the states that they left. -/
theorem bind {f : α → Checking γ} {f' : β → Checking δ} {post : State → State → γ → δ → Prop}
    (h : Parallel strict st st' act act' mid)
    (hf : ∀ t t' x x', st.Within t → st'.Within t' → t.Alike strict t' → mid t t' x x' →
      Parallel strict t t' (f x) (f' x') post) :
    Parallel strict st st' (act >>= f) (act' >>= f') post :=
  have hrest := hf _ _ _ _ h.left h.right h.alike h.post
  ⟨trans_of State.Within h.left hrest.left, trans_of State.Within h.right hrest.right, hrest.alike,
    hrest.post⟩

/-- What comes after reading the state is run from that state. -/
theorem get_bind {f : State → Checking γ} {f' : State → Checking δ}
    {post : State → State → γ → δ → Prop} (h : Parallel strict st st' (f st) (f' st') post) :
    Parallel strict st st' (get >>= f) (get >>= f') post :=
  ⟨h.left, h.right, h.alike, h.post⟩

theorem map {f : α → γ} {f' : β → δ} {post : State → State → γ → δ → Prop}
    (h : Parallel strict st st' act act' mid)
    (hf : ∀ t t' x x', mid t t' x x' → post t t' (f x) (f' x')) :
    Parallel strict st st' (f <$> act) (f' <$> act') post :=
  ⟨h.left, h.right, h.alike, hf _ _ _ _ h.post⟩

/-- Answers that are there are still there as options. -/
theorem map_some (h : Parallel strict st st' act act' mid) :
    Parallel strict st st' (some <$> act) (some <$> act') fun t t' => Option.Rel (mid t t') :=
  h.map fun _ _ _ _ hx => .some hx

section Lists

variable {fits : State → State → γ → δ → Prop}
  (lasts : ∀ s s' t t' y y', State.Within s t → State.Within s' t' → fits s s' y y' →
    fits t t' y y')
  (h : st.Alike strict st')
include h

include lasts in
/-- By induction on the list. What the first items came to has to last while the others are run. -/
theorem mapM {f : α → Checking γ} {f' : α → Checking δ} (xs : List α)
    (hf : ∀ x t t', st.Within t → st'.Within t' → t.Alike strict t' →
      Parallel strict t t' (f x) (f' x) fits) :
    Parallel strict st st' (xs.mapM f) (xs.mapM f') fun t t' => List.Forall₂ (fits t t') := by
  induction xs generalizing st st' with
  | nil => exact .pure h .nil
  | cons x xs ih =>
    rw [List.mapM_cons, List.mapM_cons]
    refine (hf x st st' (refl st) (refl st') h).bind fun t t' y y' ht ht' halike hy => ?_
    have hrest := ih halike fun x u u' hu hu' =>
      hf x u u' (trans_of State.Within ht hu) (trans_of State.Within ht' hu')
    refine hrest.bind fun u u' ys ys' hu hu' halike hys => .pure halike ?_
    exact .cons (lasts _ _ _ _ _ _ hu hu' hy) hys

include lasts in
theorem filterMapM {f : α → Checking (Option γ)} {f' : α → Checking (Option δ)} (xs : List α)
    (hf : ∀ x t t', st.Within t → st'.Within t' → t.Alike strict t' →
      Parallel strict t t' (f x) (f' x) fun u u' => Option.Rel (fits u u')) :
    Parallel strict st st' (xs.filterMapM f) (xs.filterMapM f') fun t t' =>
      List.Forall₂ (fits t t') := by
  induction xs generalizing st st' with
  | nil => exact .pure h .nil
  | cons x xs ih =>
    rw [List.filterMapM_cons, List.filterMapM_cons]
    refine (hf x st st' (refl st) (refl st') h).bind fun t t' y y' ht ht' halike hy => ?_
    have hrest := ih halike fun x u u' hu hu' =>
      hf x u u' (trans_of State.Within ht hu) (trans_of State.Within ht' hu')
    cases hy with
    | none => exact hrest
    | some hy =>
      refine hrest.bind fun u u' ys ys' hu hu' halike hys => .pure halike ?_
      exact .cons (lasts _ _ _ _ _ _ hu hu' hy) hys

variable (fits) in
/-- By induction on the list, from the front. -/
theorem foldlM {f : γ → α → Checking γ} {f' : δ → α → Checking δ} (xs : List α) {y : γ} {y' : δ}
    (hy : fits st st' y y')
    (hf : ∀ x t t' y y', st.Within t → st'.Within t' → t.Alike strict t' → fits t t' y y' →
      Parallel strict t t' (f y x) (f' y' x) fits) :
    Parallel strict st st' (xs.foldlM f y) (xs.foldlM f' y') fits := by
  induction xs generalizing st st' y y' with
  | nil => exact .pure h hy
  | cons x xs ih =>
    rw [List.foldlM_cons, List.foldlM_cons]
    refine (hf x st st' y y' (refl st) (refl st') h hy).bind fun t t' z z' ht ht' halike hz => ?_
    exact ih halike hz fun x u u' y y' hu hu' =>
      hf x u u' y y' (trans_of State.Within ht hu) (trans_of State.Within ht' hu')

end Lists

end Parallel

/-! ## Types -/

/-- Tables of types may grow alike, or the second one alone. -/
theorem State.Alike.grow (h : st.Alike strict st') {i i' : Interner}
    (hst : st.Within { st with interner := i }) (hst' : st'.Within { st' with interner := i' })
    (he : i.Embeds i') (hnew : ∀ id s, i'.lookup id = some s → st'.interner.lookup id = some s ∨
      Founded strict st' s) :
    State.Alike strict { st with interner := i } { st' with interner := i' } where
  left := hst.distinct h.left
  right := hst'.distinct h.right
  sites := h.sites
  embeds := he
  named := h.named.imp fun _ _ hn => ⟨hn.1.mono hst hst', hn.2.mono hst hst'⟩
  inProgress := h.inProgress.imp fun _ _ hx => hx.mono hst hst'
  founded id s hs := by
    rcases hnew id s hs with hold | hs
    · exact (h.founded id s hold).mono hst'
    · exact hs.mono hst'
  widened id wide hwide := by
    obtain ⟨hid, hunion⟩ := h.widened id wide hwide
    refine ⟨hid.mono hst'.grows.interner, ?_⟩
    have hsettled := Interner.union_settled (hst'.distinct h.right).types
      (by rw [hunion]; exact hst'.grows.interner) (State.knows_pair hid)
    rw [hunion] at hsettled
    exact hsettled

/-- Structures of the same form are interned: they are new on both sides, or only on the first one.
-/
theorem Parallel.intern (h : st.Alike strict st') {s s' : Structure}
    (hs : s.Alike (SameType st st') s') (hf : Founded strict st' s') :
    Parallel strict st st' (Check.intern s) (Check.intern s') SameType := by
  have hst := (Adds.intern s).within st
  have hst' := (Adds.intern s').within st'
  refine ⟨hst, hst', h.grow hst hst' (Interner.embeds_intern h.embeds hs) fun id x hx => ?_,
    Interner.same_intern hs⟩
  rcases Interner.lookup_intern_cases hx with hold | ⟨rfl, -⟩
  · exact .inl hold
  · exact .inr hf

theorem founded_union {ids : List TypeId} {id : TypeId} {s : Structure}
    (h : (st'.interner.union ids).2.lookup id = some s) :
    st'.interner.lookup id = some s ∨ Founded strict st' s := by
  rcases st'.interner.union_cases ids with hrun | ⟨x, -, hrun⟩ | hrun
  · rw [hrun] at h
    exact .inl h
  · rw [hrun] at h
    exact .inl h
  · rw [hrun] at h
    rcases Interner.lookup_intern_cases h with hold | ⟨rfl, -⟩
    · exact .inl hold
    · exact .inr (Interner.nodup_unionMembers _ ids)

/-- Unions of the same types have the same members in the same order. -/
theorem Parallel.union (h : st.Alike strict st') {ids ids' : List TypeId}
    (hids : List.Forall₂ (SameType st st') ids ids') :
    Parallel strict st st' (Check.union ids) (Check.union ids') SameType := by
  have hst := (Adds.union ids).within st
  have hst' := (Adds.union ids').within st'
  have he := Interner.embeds_union h.left.types h.right.types hids h.embeds
  exact ⟨hst, hst', h.grow hst hst' he fun _ _ hx => founded_union hx,
    Interner.same_union h.left.types h.right.types hids⟩

/-! ## Declarations and named types -/

/-- What is entered elsewhere leaves the types as they are. -/
theorem State.Alike.move (h : st.Alike strict st') {t t' : State} (hst : st.Within t)
    (hst' : st'.Within t') (hi : t.interner = st.interner) (hi' : t'.interner = st'.interner)
    (hwidened : ∀ id wide : Nat, t'.widened[id]? = some wide → st'.widened[id]? = some wide ∨
      st'.Knows id ∧ st'.interner.union [id, TypeId.undefined] = (wide, st'.interner))
    (hsites : t'.sites = t.sites)
    (hnamed : List.Forall₂ (fun x x' => SameType t t' x.1 x'.1 ∧ SameNamed strict t t' x.2 x'.2)
      t.named t'.named)
    (hprogress : List.Forall₂ (SameType t t') t.inProgress t'.inProgress) : t.Alike strict t' where
  left := hst.distinct h.left
  right := hst'.distinct h.right
  sites := hsites
  embeds := by rw [hi, hi']; exact h.embeds
  named := hnamed
  inProgress := hprogress
  founded id s hs := (h.founded id s (hi' ▸ hs)).mono hst'
  widened id wide hwide := by
    rw [State.Knows, hi']
    exact (hwidened id wide hwide).elim (h.widened id wide) fun hnew => hnew

section Lasts

variable {t t' : State} (h : st.Alike strict st') (hst : st.Within t) (hst' : st'.Within t')
include h hst hst'

theorem State.Alike.named_mono : List.Forall₂
    (fun x x' => SameType t t' x.1 x'.1 ∧ SameNamed strict t t' x.2 x'.2) st.named st'.named :=
  h.named.imp fun _ _ hn => ⟨hn.1.mono hst hst', hn.2.mono hst hst'⟩

theorem State.Alike.inProgress_mono :
    List.Forall₂ (SameType t t') st.inProgress st'.inProgress :=
  sameTypes_mono hst hst' h.inProgress

end Lasts

namespace Parallel

/-- A node is entered at the same place. -/
theorem declare (h : st.Alike strict st') (m : Module) (kind : DeclarationKind)
    (name : Option String) (node : NodeId) :
    Parallel strict st st' (m.declare kind name node) (m.declare kind name node)
      fun _ t' d d' => d' = d ∧ d < t'.sites.size := by
  have hst := (Adds.declare m kind name node).within st
  have hst' := (Adds.declare m kind name node).within st'
  have hsite : st'.site? m.key node = st.site? m.key node := by
    rw [State.site?, State.site?, h.sites]
  cases hd : st.site? m.key node with
  | some d =>
    rw [hd] at hsite
    obtain ⟨hlt, -⟩ := Array.findIdx?_eq_some_iff_getElem.1 hsite
    exact .of_run (declare_of_site? st m kind name node hd)
      (declare_of_site? st' m kind name node hsite)
      (refl st) (refl st') h ⟨rfl, hlt⟩
  | none =>
    rw [hd] at hsite
    have hrun := declare_of_new st m kind name node hd
    have hrun' := declare_of_new st' m kind name node hsite
    rw [h.sites] at hrun'
    rw [hrun] at hst
    rw [hrun'] at hst'
    exact .of_run hrun hrun' hst hst'
      (h.move hst hst' rfl rfl (fun _ _ hw => .inl hw) rfl (h.named_mono hst hst')
        (h.inProgress_mono hst hst'))
      ⟨rfl, by simp⟩

theorem warn (h : st.Alike strict st') (w : Warning) :
    Parallel strict st st' (Check.warn w) (Check.warn w) fun _ _ _ _ => True := by
  have hst := (Adds.warn w).within st
  have hst' := (Adds.warn w).within st'
  exact ⟨hst, hst', h.move hst hst' rfl rfl (fun _ _ hw => .inl hw) h.sites (h.named_mono hst hst')
    (h.inProgress_mono hst hst'), trivial⟩

section Named

variable (h : st.Alike strict st') {id id' : TypeId} (hid : SameType st st' id id')
include h hid

theorem start : Parallel strict st st' (Check.start id) (Check.start id') fun _ _ _ _ => True := by
  have hst := (Adds.start id).within st
  have hst' := (Adds.start id').within st'
  exact ⟨hst, hst', h.move hst hst' rfl rfl (fun _ _ hw => .inl hw) h.sites (h.named_mono hst hst')
    (.cons (hid.mono hst hst') (h.inProgress_mono hst hst')), trivial⟩

theorem finish : Parallel strict st st' (Check.finish id)
    (Check.finish id') fun _ _ _ _ => True := by
  have hst := (Adds.finish id).within st
  have hst' := (Adds.finish id').within st'
  have herase := hid.erase h.left.types h.right.types h.inProgress
  exact ⟨hst, hst', h.move hst hst' rfl rfl (fun _ _ hw => .inl hw) h.sites (h.named_mono hst hst')
    (sameTypes_mono hst hst' herase), trivial⟩

theorem setShape {shape shape' : Shape}
    (hshape : List.Forall₂ (SameProperty strict st st') shape shape') :
    Parallel strict st st' (Check.setShape id shape) (Check.setShape id' shape')
      fun _ _ _ _ => True := by
  have hst := (Adds.setShape id shape).within st
  have hst' := (Adds.setShape id' shape').within st'
  have hnew : SameNamed strict st st' (.members shape) (.members shape') := .members hshape
  exact ⟨hst, hst', h.move hst hst' rfl rfl (fun _ _ hw => .inl hw) h.sites
    (.cons ⟨hid.mono hst hst', hnew.mono hst hst'⟩ (h.named_mono hst hst'))
    (h.inProgress_mono hst hst'), trivial⟩

theorem setAlias {aim aim' : TypeId} (haim : SameType st st' aim aim') :
    Parallel strict st st' (Check.setAlias id aim) (Check.setAlias id' aim')
      fun _ _ _ _ => True := by
  have hst := (Adds.setAlias id aim).within st
  have hst' := (Adds.setAlias id' aim').within st'
  have hnew : SameNamed strict st st' (.target aim) (.target aim') := .target haim
  exact ⟨hst, hst', h.move hst hst' rfl rfl (fun _ _ hw => .inl hw) h.sites
    (.cons ⟨hid.mono hst hst', hnew.mono hst hst'⟩ (h.named_mono hst hst'))
    (h.inProgress_mono hst hst'), trivial⟩

end Named

end Parallel

/-! ## Optional properties -/

theorem widen_of_mem {id : TypeId} (h : id ∈ st.widened) : widen id st = ((), st) := by
  rw [widen_run, if_pos (Std.TreeMap.contains_iff_mem.2 h)]
  rfl

theorem widen_of_not_mem {id : TypeId} (h : id ∉ st.widened) :
    widen id st = ((), { st with
      interner := (st.interner.union [id, TypeId.undefined]).2
      widened := st.widened.insert id (st.interner.union [id, TypeId.undefined]).1 }) := by
  rw [widen_run, if_neg (mt Std.TreeMap.contains_iff_mem.1 h)]
  rfl

theorem mem_widen (id : TypeId) (st : State) : id ∈ (widen id st).2.widened := by
  by_cases h : id ∈ st.widened
  · rw [widen_of_mem h]
    exact h
  · rw [widen_of_not_mem h]
    exact Std.TreeMap.mem_insert_self

section Widen

variable (h : st.Alike strict st') {id id' : TypeId} (hid : SameType st st' id id')
include h hid

omit h in
theorem same_undefined : List.Forall₂ (SameType st st') [id, TypeId.undefined]
    [id', TypeId.undefined] :=
  have hundefined : SameType st st' TypeId.undefined TypeId.undefined :=
    .keyword _ _ (show TypeId.undefined < intrinsicNames.length by decide)
  .cons hid (.cons hundefined .nil)

/-- The second state may record the type of an optional property alone. -/
theorem State.Alike.widen_right : st.Alike strict (widen id' st').2 := by
  by_cases hmem : id' ∈ st'.widened
  · rw [widen_of_mem hmem]
    exact h
  · rw [widen_of_not_mem hmem]
    have hst' := (Adds.union [id', TypeId.undefined]).within st'
    have hgrown := h.grow (refl st) hst' (h.embeds.mono hst'.grows.interner) fun _ _ hx =>
      founded_union hx
    have hrecord := Adds.within_record (Check.union [id', TypeId.undefined] st').2 id'
      (st'.interner.union [id', TypeId.undefined]).1
    refine hgrown.move (refl st) hrecord rfl rfl (fun x wide hwide => ?_) hgrown.sites
      (hgrown.named_mono (refl st) hrecord) (hgrown.inProgress_mono (refl st) hrecord)
    rw [Std.TreeMap.getElem?_insert] at hwide
    split at hwide
    · rename_i hx
      obtain rfl := Std.LawfulEqCmp.eq_of_compare hx
      obtain rfl := Option.some.inj hwide
      exact .inr ⟨hid.known_right.mono hst'.grows.interner,
        Interner.union_settled hgrown.right.types (refl _) (State.knows_pair hid.known_right)⟩
    · exact .inl hwide

/-- The first state may do so where the second one did. -/
theorem State.Alike.widen_left (hmem : id' ∈ st'.widened) : (widen id st).2.Alike strict st' := by
  by_cases hold : id ∈ st.widened
  · rw [widen_of_mem hold]
    exact h
  · rw [widen_of_not_mem hold]
    obtain ⟨-, hunion⟩ := h.widened id' _ (Std.TreeMap.getElem?_eq_some_getElem hmem)
    have he := Interner.embeds_union h.left.types h.right.types (same_undefined hid) h.embeds
    rw [hunion] at he
    have hgrown := h.grow ((Adds.union [id, TypeId.undefined]).within st) (refl st') he
      fun _ _ hx => .inl hx
    have hrecord := Adds.within_record (Check.union [id, TypeId.undefined] st).2 id
      (st.interner.union [id, TypeId.undefined]).1
    exact hgrown.move hrecord (refl st') rfl rfl (fun _ _ hw => .inl hw) hgrown.sites
      (hgrown.named_mono hrecord (refl st')) (hgrown.inProgress_mono hrecord (refl st'))

/-- The type of an optional property is recorded by the second action if checking is strict there,
whatever the first one does. -/
theorem widen_parallel {lenient : Bool} (hstrict : lenient = true → strict = true)
    (optional : Bool) :
    Parallel strict st st'
      (if (optional && lenient) = true then Check.widen id else Pure.pure ())
      (if (optional && strict) = true then Check.widen id' else Pure.pure ())
      fun _ t' _ _ => strict = true → optional = true → id' ∈ t'.widened := by
  have hright := h.widen_right hid
  have hmem := mem_widen id' st'
  have hst' := (Adds.widen id').within st'
  cases optional with
  | false => exact .pure h fun _ ho => absurd ho Bool.false_ne_true
  | true =>
    cases strict with
    | false =>
      obtain rfl : lenient = false :=
        Bool.eq_false_iff.2 fun hl => absurd (hstrict hl) Bool.false_ne_true
      exact .pure h fun hs => absurd hs Bool.false_ne_true
    | true =>
      cases lenient with
      | false => exact ⟨refl st, hst', hright, fun _ _ => hmem⟩
      | true =>
        have hleft := hright.widen_left (hid.mono (refl st) hst') hmem
        exact ⟨(Adds.widen id).within st, hst', hleft, fun _ _ => hmem⟩

/-- What comes after an optional property finds its type recorded if checking is strict. -/
theorem Parallel.widen {lenient : Bool} (hstrict : lenient = true → strict = true) {optional : Bool}
    {act : Checking α} {act' : Checking β} {post : State → State → α → β → Prop}
    (hrest : ∀ t t', st.Within t → st'.Within t' → t.Alike strict t' →
      (strict = true → optional = true → id' ∈ t'.widened) → Parallel strict t t' act act' post) :
    Parallel strict st st'
      (if (optional && lenient) = true then do Check.widen id; act else act)
      (if (optional && strict) = true then do Check.widen id'; act' else act') post := by
  have hite {γ : Type} (c : Bool) (first : Checking Unit) (rest : Checking γ) :
      (if c = true then do first; rest else rest) =
        (if c = true then first else Pure.pure ()) >>= fun _ => rest := by
    split <;> rfl
  rw [hite, hite]
  exact (widen_parallel h hid hstrict optional).bind fun t t' _ _ => hrest t t'

end Widen

end TypeReify.Check
