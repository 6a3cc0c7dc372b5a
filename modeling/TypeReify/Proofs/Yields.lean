import Mathlib.Data.List.Forall2
import Mathlib.Order.Defs.Unbundled

/-!
# Actions that take a state further

An arena and the tables of a checker only ever grow, and what is said of an answer (that a reference
leads to some tree, that an id stands for some type) stays true while they do. `Yields le s act
post` says both at once: run from `s`, the action ends in a state beyond `s`, and its answer fits
there.

The actions that are followed are those of `visit_each_child`, `walk` and `rewrite`, whose state is
an arena, and those of `resolve_type` and `walk_node`, whose state is the tables.

Results:
* `Yields.bind`: what an action answered still fits when the actions after it are done.
* `Yields.mapM`: so do the answers of a list of actions.
* `Agrees.bind`: two actions do the same if their parts do.

Out of scope: actions that may fail. The actions of the program always answer.
-/

namespace TypeReify

variable {σ α β : Type}

/-- What is true of every answer that fits is true of all answers of a list of actions. -/
theorem forall_of_forall₂ {R : α → β → Prop} {P : β → Prop} {xs : List α} {ys : List β}
    (h : List.Forall₂ R xs ys) (hP : ∀ x y, R x y → P y) : ∀ y ∈ ys, P y := by
  induction h with
  | nil => exact fun _ hy => absurd hy List.not_mem_nil
  | cons hR _ ih => exact List.forall_mem_cons.2 ⟨hP _ _ hR, ih⟩

/-- Run from `s`, the action takes the state further, and its answer fits the state it leaves. -/
structure Yields (le : σ → σ → Prop) (s : σ) (act : StateM σ α) (post : σ → α → Prop) : Prop where
  le : le s (act s).2
  post : post (act s).2 (act s).1

namespace Yields

variable {le : σ → σ → Prop} {s : σ} {act : StateM σ α}

theorem pure [IsPreorder σ le] {x : α} {post : σ → α → Prop} (h : post s x) :
    Yields le s (Pure.pure x) post :=
  ⟨refl s, h⟩

/-- Reading the state answers it. -/
theorem get [IsPreorder σ le] : Yields le s (MonadState.get : StateM σ σ) fun t x =>
    t = s ∧ x = s :=
  ⟨refl s, rfl, rfl⟩

/-- The action does from `s` what another one does from a state beyond `s`. -/
theorem of_run [IsPreorder σ le] {t : σ} {act' : StateM σ α} {post : σ → α → Prop}
    (hrun : act s = act' t) (ht : le s t) (h : Yields le t act' post) : Yields le s act post := by
  refine ⟨?_, ?_⟩
  · rw [hrun]
    exact trans_of le ht h.le
  · rw [hrun]
    exact h.post

theorem mono {mid post : σ → α → Prop} (h : Yields le s act mid)
    (himp : ∀ t x, le s t → mid t x → post t x) : Yields le s act post :=
  ⟨h.le, himp _ _ h.le h.post⟩

theorem map {f : α → β} {mid : σ → α → Prop} {post : σ → β → Prop} (h : Yields le s act mid)
    (hf : ∀ t x, le s t → mid t x → post t (f x)) : Yields le s (f <$> act) post :=
  ⟨h.le, hf _ _ h.le h.post⟩

theorem seq [IsPreorder σ le] {f : α → StateM σ β} {mid : σ → α → Prop} {post : σ → β → Prop}
    (h : Yields le s act mid) (hf : ∀ t x, le s t → mid t x → Yields le t (f x) post) :
    Yields le s (act >>= f) post :=
  have hf := hf _ _ h.le h.post
  ⟨trans_of le h.le hf.le, hf.post⟩

/-- What the first action answered is known again at the end, since it outlasts later steps. -/
theorem bind [IsPreorder σ le] {f : α → StateM σ β} {mid : σ → α → Prop} {post : σ → β → Prop}
    (h : Yields le s act mid) (lasts : ∀ t u x, le t u → mid t x → mid u x)
    (hf : ∀ t x, le s t → mid t x → Yields le t (f x) fun u y => mid u x → post u y) :
    Yields le s (act >>= f) post := by
  have hf := hf _ _ h.le h.post
  exact ⟨trans_of le h.le hf.le, hf.post (lasts _ _ _ hf.le h.post)⟩

theorem mapM [IsPreorder σ le] {f : α → StateM σ β} {fits : σ → α → β → Prop} {xs : List α}
    (lasts : ∀ t u x y, le t u → fits t x y → fits u x y)
    (h : ∀ x ∈ xs, ∀ t, le s t → Yields le t (f x) fun u y => fits u x y) :
    Yields le s (xs.mapM f) fun u ys => List.Forall₂ (fits u) xs ys := by
  induction xs generalizing s with
  | nil => exact .pure .nil
  | cons x xs ih =>
    rw [List.mapM_cons]
    refine (h x List.mem_cons_self s (refl s)).bind (fun t u y => lasts t u x y) fun t y ht _ => ?_
    have hrest := ih fun x' hx' u hu => h x' (List.mem_cons_of_mem x hx') u (trans_of le ht hu)
    refine hrest.bind (fun u v ys huv => List.Forall₂.imp fun x y => lasts u v x y huv)
      fun u ys _ _ => .pure fun hys hy => ?_
    exact .cons hy hys

theorem filterMapM [IsPreorder σ le] {f : α → StateM σ (Option β)} {fits : σ → β → Prop}
    {xs : List α} (lasts : ∀ t u y, le t u → fits t y → fits u y)
    (h : ∀ x ∈ xs, ∀ t, le s t → Yields le t (f x) fun u out => ∀ y ∈ out, fits u y) :
    Yields le s (xs.filterMapM f) fun u ys => ∀ y ∈ ys, fits u y := by
  induction xs generalizing s with
  | nil => exact .pure fun _ hy => absurd hy List.not_mem_nil
  | cons x xs ih =>
    rw [List.filterMapM_cons]
    refine (h x List.mem_cons_self s (refl s)).bind
      (fun t u out htu hout y hy => lasts t u y htu (hout y hy)) fun t out ht _ => ?_
    have hrest := ih fun x' hx' u hu => h x' (List.mem_cons_of_mem x hx') u (trans_of le ht hu)
    cases out with
    | none => exact hrest.mono fun u ys _ hys _ => hys
    | some y =>
      refine hrest.bind (fun u v ys huv hys y' hy' => lasts u v y' huv (hys y' hy'))
        fun u ys _ _ => .pure fun hys hy => ?_
      exact List.forall_mem_cons.2 ⟨hy y rfl, hys⟩

/-- Where it is known which items are answered, so is what they are answered. -/
theorem filterMapM_filter [IsPreorder σ le] {f : α → StateM σ (Option β)} {keep : α → Bool}
    {fits : σ → α → β → Prop} {xs : List α} (lasts : ∀ t u x y, le t u → fits t x y → fits u x y)
    (h : ∀ x ∈ xs, ∀ t, le s t →
      Yields le t (f x) fun u out => out.isSome = keep x ∧ ∀ y ∈ out, fits u x y) :
    Yields le s (xs.filterMapM f) fun u ys => List.Forall₂ (fits u) (xs.filter keep) ys := by
  induction xs generalizing s with
  | nil => exact .pure .nil
  | cons x xs ih =>
    rw [List.filterMapM_cons]
    refine (h x List.mem_cons_self s (refl s)).bind
      (fun t u out htu hout => ⟨hout.1, fun y hy => lasts t u x y htu (hout.2 y hy)⟩)
      fun t out ht hout => ?_
    have hrest := ih fun x' hx' u hu => h x' (List.mem_cons_of_mem x hx') u (trans_of le ht hu)
    cases out with
    | none =>
      rw [List.filter_cons_of_neg (by simp [← hout.1])]
      exact hrest.mono fun u ys _ hys _ => hys
    | some y =>
      rw [List.filter_cons_of_pos hout.1.symm]
      refine hrest.bind (fun u v ys huv => List.Forall₂.imp fun x y => lasts u v x y huv)
        fun u ys _ _ => .pure fun hys hy => ?_
      exact .cons (hy.2 y rfl) hys

/-- A fold keeps what every step keeps, said of the items before it. -/
theorem foldlM_append [IsPreorder σ le] {f : β → α → StateM σ β} (fits : σ → List α → β → Prop)
    {done xs : List α} {y : β} (hy : fits s done y)
    (h : ∀ x ∈ xs, ∀ t done y, le s t → fits t done y →
      Yields le t (f y x) fun u z => fits u (done ++ [x]) z) :
    Yields le s (xs.foldlM f y) fun u z => fits u (done ++ xs) z := by
  induction xs generalizing s done y with
  | nil =>
    rw [List.append_nil]
    exact .pure hy
  | cons x xs ih =>
    rw [List.foldlM_cons]
    have hx := h x List.mem_cons_self s done y (refl s) hy
    have hrest := ih hx.post fun x' hx' t done' y' ht =>
      h x' (List.mem_cons_of_mem x hx') t done' y' (trans_of le hx.le ht)
    rw [List.append_assoc, List.singleton_append] at hrest
    exact ⟨trans_of le hx.le hrest.le, hrest.post⟩

/-- What a step of a fold did for its item stays done as the value moves on by `lt`. -/
theorem foldlM [IsPreorder σ le] {lt : β → β → Prop} [IsPreorder β lt] {f : β → α → StateM σ β}
    {fits : σ → β → Prop} {done : α → β → Prop} {xs : List α} {y : β} (hy : fits s y)
    (lasts : ∀ x y z, lt y z → done x y → done x z) (h : ∀ x ∈ xs, ∀ t y, le s t → fits t y →
      Yields le t (f y x) fun u z => fits u z ∧ lt y z ∧ done x z) :
    Yields le s (xs.foldlM f y) fun u z => fits u z ∧ lt y z ∧ ∀ x ∈ xs, done x z := by
  have hfold : Yields le s (xs.foldlM f y) fun u z =>
      fits u z ∧ lt y z ∧ ∀ x ∈ [] ++ xs, done x z := by
    refine foldlM_append (fun u xs z => fits u z ∧ lt y z ∧ ∀ x ∈ xs, done x z)
      ⟨hy, refl y, fun _ hx => absurd hx List.not_mem_nil⟩ fun x hx t xs' y' ht hfits => ?_
    refine (h x hx t y' ht hfits.1).mono fun u z _ hz => ⟨hz.1, trans_of lt hfits.2.1 hz.2.1, ?_⟩
    intro x' hx'
    rcases List.mem_append.1 hx' with hx' | hx'
    · exact lasts x' _ _ hz.2.1 (hfits.2.2 x' hx')
    · exact List.mem_singleton.1 hx' ▸ hz.2.2
  exact hfold

end Yields

/-- Run from `s`, the two actions do the same, and take the state further. -/
structure Agrees (le : σ → σ → Prop) (s : σ) (act act' : StateM σ α) : Prop where
  le : le s (act s).2
  same : act s = act' s

namespace Agrees

variable {le : σ → σ → Prop} {s : σ} {act act' : StateM σ α}

theorem refl (h : le s (act s).2) : Agrees le s act act := ⟨h, rfl⟩

theorem bind [IsPreorder σ le] {f f' : α → StateM σ β} (h : Agrees le s act act')
    (hf : ∀ t x, le s t → Agrees le t (f x) (f' x)) : Agrees le s (act >>= f) (act' >>= f') := by
  have hrest := hf (act s).2 (act s).1 h.le
  refine ⟨trans_of le h.le hrest.le, ?_⟩
  show f (act s).1 (act s).2 = f' (act' s).1 (act' s).2
  rw [← h.same]
  exact hrest.same

end Agrees

end TypeReify
