import TypeReify.Proofs.Check.Resolve
import TypeReify.Proofs.Check.Adds
import TypeReify.Proofs.Types.Same

/-!
# Asking again

When the checker comes back to what it was in the middle of, its tables have grown and the same
named types are in progress as before (`Later`). What it answered then it answers again (`Again`):
ids are kept, sites keep their places, and a named type that was in progress still is, so that
nothing has been worked out of it meanwhile.

`Repeats` follows two actions, the second of which is run in any state after the first one: they may
be the same action, or work in surroundings that do not differ in what matters.

What is repeated in the source are calls of `resolve_type` with the same node: `alias_targets` and
`interface_shapes` answer for named types, and every other node is worked out again.

Results:
* `Repeats.bind` and its like: what is put together of actions that repeat is one.
* `Repeats.of_fact`: an action repeats if its answer is told by something that lasts.
* `propertiesOf_later`, `literalKeys_later`: a type has the same properties and denotes the same
  keys later on.
-/

namespace TypeReify.Check

open Syntax Scope
open TypeReify.Types

/-- The tables agree with each other and with the files, and say nothing twice. -/
structure State.Sound (sources : Sources) (st : State) : Prop where
  consistent : st.Consistent sources
  distinct : st.Distinct

/-- The checker is in the middle of the same named types, and knows no less. -/
structure Later (sources : Sources) (st st' : State) : Prop where
  grows : st.Grows st'
  inProgress : st'.inProgress = st.inProgress
  sound : st.Sound sources → st'.Sound sources

variable {sources : Sources}

instance : IsPreorder State (Later sources) where
  refl _ := ⟨refl _, rfl, id⟩
  trans _ _ _ h h' := ⟨trans_of State.Grows h.grows h'.grows, h'.inProgress.trans h.inProgress,
    h'.sound ∘ h.sound⟩

theorem sound_empty (sources : Sources) : State.empty.Sound sources :=
  ⟨consistent_empty sources, distinct_empty⟩

/-- Work that only adds leaves a later state. -/
theorem Works.later {strict : Bool} {st st' : State} (h : Works strict sources st st')
    (hadds : st.Within st') : Later sources st st' :=
  ⟨h.grows, h.inProgress, fun hst => ⟨h.consistent hst.consistent, hadds.distinct hst.distinct⟩⟩

variable {α β : Type}

/-- In every later state the action answers `x`, and leaves a later state. -/
def Again (sources : Sources) (act : Checking α) (st : State) (x : α) : Prop :=
  ∀ t, Later sources st t → (act t).1 = x ∧ Later sources t (act t).2

theorem Again.mono {act : Checking α} {st st' : State} {x : α} (h : Again sources act st x)
    (hst : Later sources st st') : Again sources act st' x :=
  fun t ht => h t (trans_of (Later sources) hst ht)

/-- Run from `st`, the action leaves a later state, its answer fits there, and from then on `act'`
answers the same. -/
def Repeats (sources : Sources) (st : State) (act act' : Checking α) (fits : State → α → Prop) :
    Prop :=
  Yields (Later sources) st act fun u x => fits u x ∧ Again sources act' u x

/-! ## What actions are put together of -/

namespace Repeats

variable {st : State} {act act' : Checking α} {fits : State → α → Prop}

theorem pure {x : α} (h : fits st x) : Repeats sources st (Pure.pure x) (Pure.pure x) fits :=
  Yields.pure ⟨h, fun t _ => ⟨rfl, refl t⟩⟩

theorem imp {fits' : State → α → Prop} (h : Repeats sources st act act' fits)
    (himp : ∀ t x, Later sources st t → fits t x → fits' t x) : Repeats sources st act act' fits' :=
  h.mono fun t x ht hx => ⟨himp t x ht hx.1, hx.2⟩

theorem bind {f f' : α → Checking β} {fits' : State → β → Prop}
    (h : Repeats sources st act act' fits)
    (hf : ∀ t x, Later sources st t → fits t x → Repeats sources t (f x) (f' x) fits') :
    Repeats sources st (act >>= f) (act' >>= f') fits' := by
  have hrest := hf _ _ h.le h.post.1
  refine ⟨trans_of (Later sources) h.le hrest.le, hrest.post.1, fun v hv => ?_⟩
  obtain ⟨hsame, hlater⟩ := h.post.2 v (trans_of (Later sources) hrest.le hv)
  obtain ⟨hnext, hleave⟩ := hrest.post.2 (act' v).2 (trans_of (Later sources) hv hlater)
  show (f' (act' v).1 (act' v).2).1 = _ ∧ Later sources v (f' (act' v).1 (act' v).2).2
  rw [hsame]
  exact ⟨hnext, trans_of (Later sources) hlater hleave⟩

theorem map {f : α → β} {fits' : State → β → Prop} (h : Repeats sources st act act' fits)
    (hf : ∀ t x, fits t x → fits' t (f x)) : Repeats sources st (f <$> act) (f <$> act') fits' :=
  ⟨h.le, hf _ _ h.post.1, fun t ht => ⟨congrArg f (h.post.2 t ht).1, (h.post.2 t ht).2⟩⟩

/-- Reading what stays the same may be repeated. -/
theorem get_bind {γ : Type} (view : State → γ) (f f' : γ → Checking α)
    (hview : ∀ t, Later sources st t → view t = view st)
    (h : Repeats sources st (f (view st)) (f' (view st)) fits) :
    Repeats sources st (get >>= fun t => f (view t)) (get >>= fun t => f' (view t)) fits := by
  refine ⟨h.le, h.post.1, fun t ht => ?_⟩
  show (f' (view t) t).1 = _ ∧ Later sources t (f' (view t) t).2
  rw [hview t (trans_of (Later sources) h.le ht)]
  exact h.post.2 t ht

/-- An action repeats if, whenever it is run, its answer is told by a fact that lasts and that is
true of one answer only. -/
theorem of_fact {fact : State → α → Prop} (hst : st.Sound sources)
    (lasts : ∀ t u x, Later sources st t → t.Sound sources → Later sources t u →
      fact t x → fact u x)
    (unique : ∀ t x y, t.Sound sources → fact t x → fact t y → x = y)
    (run : ∀ t, Later sources st t → Yields (Later sources) t act fact) :
    Repeats sources st act act fact := by
  have hfirst := run st (refl st)
  refine ⟨hfirst.le, hfirst.post, fun t ht => ?_⟩
  have hsound : ∀ u, Later sources st u → u.Sound sources := fun u hu => hu.sound hst
  have hagain := run t (trans_of (Later sources) hfirst.le ht)
  have hend := trans_of (Later sources) ht hagain.le
  have hfact := lasts _ _ _ hfirst.le (hsound _ hfirst.le) hend hfirst.post
  exact ⟨unique _ _ _ (hsound _ (trans_of (Later sources) hfirst.le hend)) hagain.post hfact,
    hagain.le⟩

section Lists

variable {γ δ : Type} {xs : List γ}

theorem mapM {f f' : γ → Checking δ} {fits : State → δ → Prop}
    (lasts : ∀ t u y, Later sources t u → fits t y → fits u y)
    (h : ∀ x ∈ xs, ∀ t, Later sources st t → Repeats sources t (f x) (f' x) fits) :
    Repeats sources st (xs.mapM f) (xs.mapM f') fun u ys => ∀ y ∈ ys, fits u y := by
  induction xs generalizing st with
  | nil => exact .pure fun _ hy => absurd hy List.not_mem_nil
  | cons x xs ih =>
    rw [List.mapM_cons, List.mapM_cons]
    refine (h x List.mem_cons_self st (refl st)).bind fun t y ht hy => ?_
    have hrest := ih fun x' hx' u hu =>
      h x' (List.mem_cons_of_mem x hx') u (trans_of (Later sources) ht hu)
    exact hrest.bind fun u ys hu hys => .pure (List.forall_mem_cons.2 ⟨lasts t u y hu hy, hys⟩)

theorem filterMapM {f f' : γ → Checking (Option δ)} {fits : State → δ → Prop}
    (lasts : ∀ t u y, Later sources t u → fits t y → fits u y)
    (h : ∀ x ∈ xs, ∀ t, Later sources st t →
      Repeats sources t (f x) (f' x) fun u out => ∀ y ∈ out, fits u y) :
    Repeats sources st (xs.filterMapM f) (xs.filterMapM f') fun u ys => ∀ y ∈ ys, fits u y := by
  induction xs generalizing st with
  | nil => exact .pure fun _ hy => absurd hy List.not_mem_nil
  | cons x xs ih =>
    rw [List.filterMapM_cons, List.filterMapM_cons]
    refine (h x List.mem_cons_self st (refl st)).bind fun t out ht hout => ?_
    have hrest := ih fun x' hx' u hu =>
      h x' (List.mem_cons_of_mem x hx') u (trans_of (Later sources) ht hu)
    cases out with
    | none => exact hrest
    | some y =>
      refine hrest.bind fun u ys hu hys => .pure ?_
      exact List.forall_mem_cons.2 ⟨lasts t u y hu (hout y rfl), hys⟩

theorem foldlM {f f' : δ → γ → Checking δ} {fits : State → δ → Prop} {y : δ} (hy : fits st y)
    (h : ∀ x ∈ xs, ∀ t y, Later sources st t → fits t y →
      Repeats sources t (f y x) (f' y x) fits) :
    Repeats sources st (xs.foldlM f y) (xs.foldlM f' y) fits := by
  induction xs generalizing st y with
  | nil => exact .pure hy
  | cons x xs ih =>
    rw [List.foldlM_cons, List.foldlM_cons]
    refine (h x List.mem_cons_self st y (refl st) hy).bind fun t z ht hz => ?_
    exact ih hz fun x' hx' u y' hu =>
      h x' (List.mem_cons_of_mem x hx') u y' (trans_of (Later sources) ht hu)

end Lists

end Repeats

/-! ## Basic actions -/

section Actions

variable {st : State} (hst : st.Sound sources)

theorem State.Knows.later {st t : State} {id : TypeId} (h : st.Knows id)
    (ht : Later sources st t) : t.Knows id :=
  h.mono ht.grows.interner

theorem later_intern {s : Structure} (hs : ¬s.IsNamed) (hm : ∀ x ∈ s.mentions, st.Knows x) :
    Later sources st (intern s st).2 :=
  ⟨grows_intern st s, rfl, fun h =>
    ⟨h.consistent.intern hs hm, ((Adds.intern s).within st).distinct h.distinct⟩⟩

theorem later_warn (w : Warning) : Later sources st (warn w st).2 :=
  ⟨grows_warn st w, rfl, fun h =>
    ⟨h.consistent.warn w, ((Adds.warn w).within st).distinct h.distinct⟩⟩

theorem later_widen {id : TypeId} (hid : st.Knows id) : Later sources st (widen id st).2 :=
  ⟨grows_widen st id, inProgress_widen st id, fun h =>
    ⟨h.consistent.widen hid, ((Adds.widen id).within st).distinct h.distinct⟩⟩

/-- Nothing is answered, so nothing can change. -/
theorem Repeats.unit {act : Checking Unit}
    (h : ∀ t, Later sources st t → Later sources t (act t).2) :
    Repeats sources st act act fun _ _ => True :=
  ⟨h st (refl st), trivial, fun t ht => ⟨rfl, h t (trans_of (Later sources) (h st (refl st)) ht)⟩⟩

include hst

theorem Repeats.intern {s : Structure} (hs : ¬s.IsNamed) (hm : ∀ x ∈ s.mentions, st.Knows x) :
    Repeats sources st (Check.intern s) (Check.intern s) fun u id =>
      u.interner.lookup id = some s := by
  refine .of_fact hst (fun _ _ _ _ _ htu h => htu.grows.interner _ _ h)
    (fun t x y ht => ht.distinct.types x y s) fun t ht =>
      ⟨later_intern hs fun x hx => (hm x hx).later ht, Interner.lookup_intern _ s⟩

/-- A union that is in the table is found there again. -/
theorem union_later {ids : List TypeId} (hids : ∀ id ∈ ids, st.Knows id) {id : TypeId}
    (h : st.interner.union ids = (id, st.interner)) {t : State} (ht : Later sources st t) :
    t.interner.union ids = (id, t.interner) := by
  have hagain : t.interner.union ids = ((st.interner.union ids).1, t.interner) :=
    Interner.union_settled (ht.sound hst).distinct.types (by rw [h]; exact ht.grows.interner) hids
  rwa [h] at hagain

theorem Repeats.union {ids : List TypeId} (hids : ∀ id ∈ ids, st.Knows id) :
    Repeats sources st (Check.union ids) (Check.union ids) fun u id =>
      u.interner.union ids = (id, u.interner) ∧ u.Knows id := by
  refine .of_fact hst (fun t u x hst' ht htu h => ⟨?_, h.2.later htu⟩) (fun t x y _ hx hy => ?_)
    fun t ht => ⟨?_, ?_, Interner.known_union ?_ fun id hid => (hids id hid).later ht⟩
  · exact union_later ht (fun id hid => (hids id hid).later hst') h.1 htu
  · exact congrArg Prod.fst (hx.1.symm.trans hy.1)
  · exact ⟨grows_union t ids, rfl, fun h =>
      ⟨h.consistent.union fun id hid => (hids id hid).later ht,
      ((Adds.union ids).within t).distinct h.distinct⟩⟩
  · exact Interner.union_settled
      (((Adds.union ids).within t).distinct (ht.sound hst).distinct).types
      (refl _) fun id hid => (hids id hid).later ht
  · exact (ht.sound hst).consistent.closed

theorem Repeats.declare (hkeys : (sources.modules.map (·.key)).Nodup) {m : Module}
    (hm : m ∈ sources.modules) {kind : DeclarationKind} {name : Option String} {node : NodeId}
    (hdeclares : m.Declares kind name node) :
    Repeats sources st (m.declare kind name node) (m.declare kind name node) fun u d =>
      u.sites[d]? = some ⟨m.key, ⟨kind, name, m.file.fileName, node⟩⟩ := by
  refine .of_fact hst (fun _ _ _ _ _ htu h => htu.grows.sites _ _ h)
    (fun t d d' ht hd hd' => ht.distinct.sites d d' _ _ hd hd' rfl rfl) fun t ht => ⟨?_, ?_⟩
  · exact ⟨grows_declare t m kind name node, inProgress_declare t m kind name node, fun h =>
      ⟨h.consistent.declare hm hdeclares,
        ((Adds.declare m kind name node).within t).distinct h.distinct⟩⟩
  · exact site_declare hkeys hm hdeclares (ht.sound hst).consistent

end Actions

/-! ## Reading the tables -/

section Reading

variable {st t : State} (hst : st.Sound sources) (ht : Later sources st t)
include hst ht

omit hst in
theorem get?_later {id : TypeId} (hid : st.Knows id) : t.interner.get? id = st.interner.get? id :=
  ht.grows.interner.get? hid

/-- What is known of a named type is found again. One that was in progress still is. -/
theorem lookup_later {id : TypeId} {s : Structure} (hid : st.interner.get? id = some s)
    (hs : s.IsNamed) : t.named.lookup id = st.named.lookup id := by
  have hsound := ht.sound hst
  rcases hst.consistent.covered id s hid hs with hmem | hprogress
  · obtain ⟨x, hx⟩ := NamedTypes.exists_of_mem_ids hmem
    have hx' : (id, x) ∈ t.named := ht.grows.named.subset hx
    rw [NamedTypes.lookup_of_mem hst.consistent.distinct hx,
      NamedTypes.lookup_of_mem hsound.consistent.distinct hx']
  · have hnone {u : State} (hu : u.Sound sources) (hmem : id ∈ u.inProgress) :
        u.named.lookup id = none := by
      refine List.lookup_eq_none_iff.2 fun x hx => bne_iff_ne.2 ?_
      rintro rfl
      exact hu.consistent.fresh x.1 hmem (NamedTypes.mem_ids hx)
    rw [hnone hst hprogress, hnone hsound (ht.inProgress ▸ hprogress)]

/-- What a known alias stands for is found again, or is still in progress. -/
theorem target?_later {id : TypeId} {name : String} {declaration : DeclId} {arguments : List TypeId}
    (hid : st.interner.get? id = some (.synonym name declaration arguments)) :
    t.named.target? id = st.named.target? id := by
  rw [NamedTypes.target?, NamedTypes.target?, lookup_later hst ht hid trivial]

/-- A type has the same properties later on. -/
theorem propertiesOf_later {id : TypeId} (hid : st.Knows id) :
    t.propertiesOf id = st.propertiesOf id := by
  unfold State.propertiesOf
  generalize typeDepth = levels
  induction levels generalizing id with
  | zero => rfl
  | succ levels ih =>
    unfold Check.propertiesOf
    rw [get?_later ht hid]
    cases hs : st.interner.get? id with
    | none => rfl
    | some s =>
      cases s with
      | interface name declaration arguments =>
        simp only [NamedTypes.shape?, lookup_later hst ht hs trivial]
      | synonym name declaration arguments =>
        dsimp only
        rw [target?_later hst ht hs]
        cases haim : st.named.target? id with
        | none => rfl
        | some aim => exact ih (hst.consistent.knows_of_target? haim)
      | _ => rfl

/-- A type denotes the same keys later on. -/
theorem literalKeys_later {id : TypeId} (hid : st.Knows id) :
    t.literalKeys id = st.literalKeys id := by
  unfold State.literalKeys
  generalize typeDepth = levels, ([] : List (String × TypeId)) = found
  induction levels generalizing found id with
  | zero => rfl
  | succ levels ih =>
    unfold Check.literalKeys
    rw [get?_later ht hid]
    cases hs : st.interner.get? id with
    | none => rfl
    | some s =>
      cases s with
      | union members =>
        have hmembers : ∀ x ∈ members, st.Knows x :=
          fun x hx => (hst.consistent.closed id _ hs x hx).2
        exact List.foldl_ext _ _ found fun found x hx => ih (hmembers x hx) found
      | literal value => cases value <;> rfl
      | synonym name declaration arguments =>
        dsimp only
        rw [target?_later hst ht hs]
        cases haim : st.named.target? id with
        | none => rfl
        | some aim => exact ih (hst.consistent.knows_of_target? haim) found
      | _ => rfl

end Reading

end TypeReify.Check
