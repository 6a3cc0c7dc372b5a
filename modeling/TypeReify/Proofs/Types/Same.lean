import TypeReify.Proofs.Types.Interner
import TypeReify.Types.Render
import Mathlib.Data.List.Forall2

/-!
# The same type in two tables

Two tables may number one type differently, say because other types were interned in between. Ids of
two tables stand for the same type (`Same`) if the structures behind them have the same form, and
mention ids that stand for the same types. Where no structure has two ids, an id stands for the same
type as one id of the other table at most, so whatever only compares ids and reads structures does
the same with both tables.

The tables are those of two runs of the checker, each with a `TypeInterner` of its own.

Results:
* `Same.unique`, `Same.injective`: the ids of distinct tables correspond one to one.
* `same_intern`, `same_union`: interning alike structures gives ids of the same type.
* `Same.render`: the same type has the same text.
-/

namespace TypeReify.Types

variable {α β : Type}

/-- Lists related to one list entry by entry are equal where the entries are. -/
theorem forall₂_unique {R R' : α → β → Prop} (h : ∀ x y y', R x y → R' x y' → y = y') {xs : List α}
    {ys ys' : List β} (hys : List.Forall₂ R xs ys) (hys' : List.Forall₂ R' xs ys') : ys = ys' := by
  induction hys generalizing ys' with
  | nil => cases hys'; rfl
  | cons hy _ ih =>
    cases hys' with
    | cons hy' hrest => rw [h _ _ _ hy hy', ih hrest]

theorem forall₂_and_right {R : α → β → Prop} {P : β → Prop} {xs : List α} {ys : List β}
    (h : List.Forall₂ R xs ys) (hP : ∀ y ∈ ys, P y) :
    List.Forall₂ (fun x y => R x y ∧ P y) xs ys := by
  induction h with
  | nil => exact .nil
  | cons hx _ ih =>
    obtain ⟨hy, hP⟩ := List.forall_mem_cons.1 hP
    exact .cons ⟨hx, hy⟩ (ih hP)

theorem map_eq_of_forall₂ {γ : Type} {R : α → β → Prop} {f : α → γ} {g : β → γ}
    (h : ∀ x y, R x y → f x = g y) {xs : List α} {ys : List β} (hxs : List.Forall₂ R xs ys) :
    xs.map f = ys.map g := by
  induction hxs with
  | nil => rfl
  | cons hx _ ih => rw [List.map_cons, List.map_cons, h _ _ hx, ih]

theorem any_eq_of_forall₂ {R : α → β → Prop} {f : α → Bool} {g : β → Bool}
    (h : ∀ x y, R x y → f x = g y) {xs : List α} {ys : List β} (hxs : List.Forall₂ R xs ys) :
    xs.any f = ys.any g := by
  induction hxs with
  | nil => rfl
  | cons hx _ ih => rw [List.any_cons, List.any_cons, h _ _ hx, ih]

/-- Keys that compare alike find related values. -/
theorem rel_lookup {κ κ' : Type} [BEq κ] [BEq κ'] {K : κ → κ' → Prop} {R : α → β → Prop} {x : κ}
    {x' : κ'} (hx : ∀ k k', K k k' → (x == k) = (x' == k')) {xs : List (κ × α)} {ys : List (κ' × β)}
    (h : List.Forall₂ (fun a b => K a.1 b.1 ∧ R a.2 b.2) xs ys) :
    Option.Rel R (xs.lookup x) (ys.lookup x') := by
  induction h with
  | nil => exact .none
  | cons hab _ ih =>
    rw [List.lookup_cons, List.lookup_cons, hx _ _ hab.1]
    split
    · exact .some hab.2
    · exact ih

/-- Options are related when both are empty, or both hold related values. -/
theorem rel_cases {R : α → β → Prop} {x : Option α} {y : Option β} (h : Option.Rel R x y) :
    x = none ∧ y = none ∨ ∃ a b, x = some a ∧ y = some b ∧ R a b := by
  cases h with
  | none => exact .inl ⟨rfl, rfl⟩
  | some h => exact .inr ⟨_, _, rfl, rfl, h⟩

/-! ## Structures of one form -/

section Alike

variable {R R' : TypeId → TypeId → Prop}

/-- The properties differ in the ids of their types only, and these are related. -/
structure Property.Alike (R : TypeId → TypeId → Prop) (p p' : Property) : Prop where
  type : R p.type p'.type
  rest : p' = { p with type := p'.type }

/-- The parameters differ in the ids of their types only, and these are related. -/
structure Parameter.Alike (R : TypeId → TypeId → Prop) (p p' : Parameter) : Prop where
  type : R p.type p'.type
  rest : p' = { p with type := p'.type }

/-- The structures have the same form, over ids that are related. -/
inductive Structure.Alike (R : TypeId → TypeId → Prop) : Structure → Structure → Prop
  | intrinsic (name : String) : Alike R (.intrinsic name) (.intrinsic name)
  | literal (value : Literal) : Alike R (.literal value) (.literal value)
  | array {element element' : TypeId} (h : R element element') :
      Alike R (.array element) (.array element')
  | union {members members' : List TypeId} (h : List.Forall₂ R members members') :
      Alike R (.union members) (.union members')
  | object {shape shape' : Shape} (h : List.Forall₂ (Property.Alike R) shape shape') :
      Alike R (.object shape) (.object shape')
  | function {f f' : FunctionShape}
      (parameters : List.Forall₂ (Parameter.Alike R) f.parameters f'.parameters)
      (result : R f.result f'.result) : Alike R (.function f) (.function f')
  | interface (name : String) (declaration : DeclId) {arguments arguments' : List TypeId}
      (h : List.Forall₂ R arguments arguments') :
      Alike R (.interface name declaration arguments) (.interface name declaration arguments')
  | synonym (name : String) (declaration : DeclId) {arguments arguments' : List TypeId}
      (h : List.Forall₂ R arguments arguments') :
      Alike R (.synonym name declaration arguments) (.synonym name declaration arguments')
  | parameter (name : String) : Alike R (.parameter name) (.parameter name)

theorem Property.Alike.imp {p p' : Property} (h : p.Alike R p') (hR : ∀ x y, R x y → R' x y) :
    p.Alike R' p' :=
  ⟨hR _ _ h.type, h.rest⟩

theorem Parameter.Alike.imp {p p' : Parameter} (h : p.Alike R p') (hR : ∀ x y, R x y → R' x y) :
    p.Alike R' p' :=
  ⟨hR _ _ h.type, h.rest⟩

theorem Property.Alike.symm {p p' : Property} (h : p.Alike R p') :
    p'.Alike (fun x y => R y x) p := by
  refine ⟨h.type, ?_⟩
  conv_rhs => rw [h.rest]

theorem Parameter.Alike.symm {p p' : Parameter} (h : p.Alike R p') :
    p'.Alike (fun x y => R y x) p := by
  refine ⟨h.type, ?_⟩
  conv_rhs => rw [h.rest]

/-- A property is alike to one other only, if its type is. -/
theorem Property.Alike.unique (h : ∀ x y y', R x y → R' x y' → y = y') (p q q' : Property)
    (hq : p.Alike R q) (hq' : p.Alike R' q') : q = q' := by
  rw [hq.rest, hq'.rest, h _ _ _ hq.type hq'.type]

theorem Parameter.Alike.unique (h : ∀ x y y', R x y → R' x y' → y = y') (p q q' : Parameter)
    (hq : p.Alike R q) (hq' : p.Alike R' q') : q = q' := by
  rw [hq.rest, hq'.rest, h _ _ _ hq.type hq'.type]

theorem Property.Alike.name_eq {p p' : Property} (h : p.Alike R p') : p'.name = p.name := by
  rw [h.rest]

namespace Structure.Alike

variable {s s' : Structure}

theorem imp (h : s.Alike R s') (hR : ∀ x y, R x y → R' x y) : s.Alike R' s' := by
  cases h with
  | intrinsic name => exact .intrinsic name
  | literal value => exact .literal value
  | array h => exact .array (hR _ _ h)
  | union h => exact .union (h.imp hR)
  | object h => exact .object (h.imp fun _ _ hp => hp.imp hR)
  | function hp hr => exact .function (hp.imp fun _ _ hp => hp.imp hR) (hR _ _ hr)
  | interface name d h => exact .interface name d (h.imp hR)
  | synonym name d h => exact .synonym name d (h.imp hR)
  | parameter name => exact .parameter name

theorem symm (h : s.Alike R s') : s'.Alike (fun x y => R y x) s := by
  cases h with
  | intrinsic name => exact .intrinsic name
  | literal value => exact .literal value
  | array h => exact .array h
  | union h => exact .union h.flip
  | object h => exact .object (h.imp fun _ _ hp => hp.symm).flip
  | function hp hr => exact .function (hp.imp fun _ _ hp => hp.symm).flip hr
  | interface name d h => exact .interface name d h.flip
  | synonym name d h => exact .synonym name d h.flip
  | parameter name => exact .parameter name

/-- A structure is alike to itself over ids that are related to themselves. -/
theorem of_mentions (h : ∀ x ∈ s.mentions, R x x) : s.Alike R s := by
  cases s with
  | intrinsic name => exact .intrinsic name
  | literal value => exact .literal value
  | array element => exact .array (h element List.mem_cons_self)
  | union members => exact .union (List.forall₂_same.2 h)
  | object shape =>
    exact .object (List.forall₂_same.2 fun p hp => ⟨h p.type (List.mem_map_of_mem hp), rfl⟩)
  | function shape =>
    refine .function (List.forall₂_same.2 fun p hp => ⟨h p.type ?_, rfl⟩) (h shape.result ?_)
    · exact List.mem_append_left _ (List.mem_map_of_mem hp)
    · exact List.mem_append_right _ List.mem_cons_self
  | interface name declaration arguments =>
    exact .interface name declaration (List.forall₂_same.2 h)
  | synonym name declaration arguments => exact .synonym name declaration (List.forall₂_same.2 h)
  | parameter name => exact .parameter name

/-- A structure is alike to one other at most, if its ids are related to one other each. -/
theorem unique (h : ∀ x y y', R x y → R' x y' → y = y') {s₁ s₂ : Structure} (h₁ : s.Alike R s₁)
    (h₂ : s.Alike R' s₂) : s₁ = s₂ := by
  cases h₁ with
  | intrinsic _ | literal _ | parameter _ => cases h₂; rfl
  | array h₁ =>
    cases h₂ with
    | array h₂ => rw [h _ _ _ h₁ h₂]
  | union h₁ =>
    cases h₂ with
    | union h₂ => rw [forall₂_unique h h₁ h₂]
  | object h₁ =>
    cases h₂ with
    | object h₂ => rw [forall₂_unique (Property.Alike.unique h) h₁ h₂]
  | @function _ f₁ hp₁ hr₁ =>
    cases h₂ with
    | @function _ f₂ hp₂ hr₂ =>
      rcases f₁ with ⟨ps₁, r₁⟩
      rcases f₂ with ⟨ps₂, r₂⟩
      obtain rfl : ps₁ = ps₂ := forall₂_unique (Parameter.Alike.unique h) hp₁ hp₂
      obtain rfl : r₁ = r₂ := h _ _ _ hr₁ hr₂
      rfl
  | interface _ _ h₁ =>
    cases h₂ with
    | interface _ _ h₂ => rw [forall₂_unique h h₁ h₂]
  | synonym _ _ h₁ =>
    cases h₂ with
    | synonym _ _ h₂ => rw [forall₂_unique h h₁ h₂]

end Structure.Alike

end Alike

namespace Interner

/-! ## Ids of the same type -/

/-- The ids stand for the same type: structures of one form, over ids of the same types. -/
inductive Same (t t' : Interner) : TypeId → TypeId → Prop
  | intro {id id' : TypeId} {s s' : Structure} (R : TypeId → TypeId → Prop)
      (below : ∀ x x', R x x' → Same t t' x x') (left : t.lookup id = some s)
      (right : t'.lookup id' = some s') (alike : s.Alike R s') : Same t t' id id'

variable {t t' u u' : Interner} {x x' y y' : Nat} {s s' : Structure}

/-- A keyword has no entry, or one that says so. -/
theorem get?_of_lookup_intrinsic {name : String} (h : t.lookup x = some (.intrinsic name)) :
    t.get? x = none ∨ t.get? x = some (.intrinsic name) := by
  unfold lookup at h
  split at h
  · rename_i hx
    exact .inl (if_pos hx)
  · exact .inr h

namespace Same

/-- Structures that agree up to the types in them stand at the same type. -/
theorem of_alike (left : t.lookup x = some s) (right : t'.lookup x' = some s')
    (h : s.Alike (Same t t') s') : Same t t' x x' :=
  .intro (Same t t') (fun _ _ h => h) left right h

/-- The same type stands at structures that agree up to the types in them. -/
theorem exists_alike (h : Same t t' x x') :
    ∃ s s', t.lookup x = some s ∧ t'.lookup x' = some s' ∧ s.Alike (Same t t') s' := by
  obtain ⟨R, below, left, right, alike⟩ := h
  exact ⟨_, _, left, right, alike.imp below⟩

/-- Only known types are the same. -/
theorem known (h : Same t t' x x') : t.Known x := by
  obtain ⟨s, _, hs, -⟩ := h.exists_alike
  exact ⟨s, hs⟩

theorem known_right (h : Same t t' x x') : t'.Known x' := by
  obtain ⟨_, s', -, hs', -⟩ := h.exists_alike
  exact ⟨s', hs'⟩

theorem mono (h : Same t t' x x') (hu : t.Grows u) (hu' : t'.Grows u') : Same u u' x x' := by
  induction h with
  | intro R _ left right alike ih => exact .intro R ih (hu _ _ left) (hu' _ _ right) alike

theorem symm (h : Same t t' x x') : Same t' t x' x := by
  induction h with
  | intro R _ left right alike ih =>
    exact .intro (fun x y => R y x) (fun y y' hy => ih y' y hy) right left alike.symm

/-- An id stands for the same type as one id of a distinct table. -/
theorem unique (ht : t'.Distinct) (h : Same t t' x y) (h' : Same t t' x y') : y = y' := by
  induction h generalizing y' with
  | intro R _ left right alike ih =>
    obtain ⟨R', below', left', right', alike'⟩ := h'
    obtain rfl := Option.some.inj (left.symm.trans left')
    obtain rfl := alike.unique (fun a b b' hb hb' => ih a b hb (below' a b' hb')) alike'
    exact ht _ _ _ right right'

/-- No two types of one table are the same as one type of another. -/
theorem injective (ht : t.Distinct) (h : Same t t' x y) (h' : Same t t' x' y) : x = x' :=
  unique ht h.symm h'.symm

/-- Comparing ids comes to the same in both tables. -/
theorem beq_eq (ht : t.Distinct) (ht' : t'.Distinct) (h : Same t t' x x') (hy : Same t t' y y') :
    (x == y) = (x' == y') := by
  rw [Bool.eq_iff_iff, beq_iff_eq, beq_iff_eq]
  constructor
  · rintro rfl
    exact h.unique ht' hy
  · rintro rfl
    exact h.injective ht hy

/-- So a type stands in a list when its partner stands in the partners, -/
theorem contains_eq (ht : t.Distinct) (ht' : t'.Distinct) (h : Same t t' x x')
    {xs xs' : List TypeId}
    (hxs : List.Forall₂ (Same t t') xs xs') : xs.contains x = xs'.contains x' := by
  rw [List.contains_eq_any_beq, List.contains_eq_any_beq]
  exact any_eq_of_forall₂ (fun _ _ hy => h.beq_eq ht ht' hy) hxs

/-- and leaves partners behind where it is taken out. -/
theorem erase (ht : t.Distinct) (ht' : t'.Distinct) (h : Same t t' x x') {xs xs' : List TypeId}
    (hxs : List.Forall₂ (Same t t') xs xs') :
    List.Forall₂ (Same t t') (xs.erase x) (xs'.erase x') := by
  induction hxs with
  | nil => exact .nil
  | cons hy hrest ih =>
    rw [List.erase_cons, List.erase_cons, hy.beq_eq ht ht' h]
    split
    · exact hrest
    · exact .cons hy ih

/-- What can be read of ids of the same type: nothing of a keyword, else structures of one form. -/
theorem get?_cases (h : Same t t' x x') :
    (∃ name, (t.get? x = none ∨ t.get? x = some (.intrinsic name)) ∧
      (t'.get? x' = none ∨ t'.get? x' = some (.intrinsic name))) ∨
    ∃ s s', t.get? x = some s ∧ t'.get? x' = some s' ∧ s.Alike (Same t t') s' := by
  obtain ⟨s, s', left, right, alike⟩ := h.exists_alike
  cases hs : alike with
  | intrinsic name =>
    exact .inl ⟨name, get?_of_lookup_intrinsic left, get?_of_lookup_intrinsic right⟩
  | literal _ | array _ | union _ | object _ | function _ _ | interface _ _ _ | synonym _ _ _
  | parameter _ =>
    exact .inr ⟨_, _, get?_of_lookup left nofun, get?_of_lookup right nofun, alike⟩

/-- The keyword types are the same in all tables. -/
theorem keyword (t t' : Interner) (h : x < intrinsicNames.length) : Same t t' x x := by
  have hlookup (t : Interner) : t.lookup x = some (.intrinsic intrinsicNames[x]) := by
    have hx : x < TypeId.firstUser := Nat.lt_trans h (by decide)
    rw [lookup, if_pos hx, List.getElem?_eq_getElem h, Option.map_some]
  exact .of_alike (hlookup t) (hlookup t') (.intrinsic _)

/-- What a table knows is the same type in every table that has grown out of it. -/
theorem of_grows (ht : t.Closed) (hg : t.Grows u) (hx : t.Known x) : Same t u x x := by
  induction x using Nat.strongRecOn with
  | ind x ih =>
    obtain ⟨s, hs⟩ := hx
    refine .of_alike hs (hg x s hs) (.of_mentions fun y hy => ?_)
    cases s with
    | intrinsic _ => exact absurd hy List.not_mem_nil
    | _ =>
      obtain ⟨hlt, hknown⟩ := ht x _ (get?_of_lookup hs nofun) y hy
      exact ih y hlt hknown

end Same

/-! ## Interning -/

/-- Every type of the first table is a type of the second. -/
def Embeds (t t' : Interner) : Prop := ∀ x, t.Known x → ∃ x', Same t t' x x'

/-- A table keeps its image while the other grows. -/
theorem Embeds.mono (h : t.Embeds t') (hu' : t'.Grows u') : t.Embeds u' := fun x hx =>
  (h x hx).imp fun _ hx' => hx'.mono (refl t) hu'

/-- An empty table is part of every other. -/
theorem embeds_empty : empty.Embeds t' := by
  rintro x ⟨s, hs⟩
  obtain ⟨name, -, hname⟩ := lookup_empty hs
  exact ⟨x, .keyword empty t' (List.getElem?_eq_some_iff.1 hname).1⟩

/-- Interning structures that agree answers the same type. -/
theorem same_intern (h : s.Alike (Same t t') s') :
    Same (t.intern s).2 (t'.intern s').2 (t.intern s).1 (t'.intern s').1 :=
  .of_alike (lookup_intern t s) (lookup_intern t' s')
    (h.imp fun _ _ hx => hx.mono (grows_intern t s) (grows_intern t' s'))

/-- It adds to both tables or finds the structure in both. -/
theorem embeds_intern (ht : t.Embeds t') (h : s.Alike (Same t t') s') :
    (t.intern s).2.Embeds (t'.intern s').2 := by
  rintro x ⟨y, hy⟩
  rcases lookup_intern_cases hy with hold | ⟨-, rfl⟩
  · obtain ⟨x', hx'⟩ := ht x ⟨y, hold⟩
    exact ⟨x', hx'.mono (grows_intern t s) (grows_intern t' s')⟩
  · exact ⟨_, same_intern h⟩

/-! ## Unions -/

/-- The members of the same union are the same. -/
theorem same_flatten (h : Same t t' x x') :
    List.Forall₂ (Same t t') (t.flatten x) (t'.flatten x') := by
  have hself : List.Forall₂ (Same t t') [x] [x'] := .cons h .nil
  rcases h.get?_cases with ⟨name, hx, hx'⟩ | ⟨s, s', hx, hx', alike⟩
  · rcases hx with hx | hx <;> rcases hx' with hx' | hx' <;>
      simpa only [flatten, hx, hx'] using hself
  · cases alike with
    | union hmembers => simpa only [flatten, hx, hx'] using hmembers
    | _ => simpa only [flatten, hx, hx'] using hself

theorem forall₂_flatMap {R : α → β → Prop} {γ δ : Type} {Q : γ → δ → Prop} {f : α → List γ}
    {g : β → List δ} (h : ∀ x y, R x y → List.Forall₂ Q (f x) (g y)) {xs : List α} {ys : List β}
    (hxs : List.Forall₂ R xs ys) : List.Forall₂ Q (xs.flatMap f) (ys.flatMap g) := by
  induction hxs with
  | nil => exact .nil
  | cons hx _ ih =>
    rw [List.flatMap_cons, List.flatMap_cons]
    exact List.rel_append (h _ _ hx) ih

section Distinct

variable (ht : t.Distinct) (ht' : t'.Distinct)
include ht ht'

/-- Of partners, the first occurrences are partners. -/
theorem same_firsts {seen seen' xs xs' : List TypeId} (hseen : List.Forall₂ (Same t t') seen seen')
    (h : List.Forall₂ (Same t t') xs xs') :
    List.Forall₂ (Same t t') (firsts seen xs) (firsts seen' xs') := by
  induction h generalizing seen seen' with
  | nil => exact hseen
  | cons hx _ ih =>
    refine ih ?_
    rw [hx.contains_eq ht ht' hseen]
    split
    · exact hseen
    · exact List.rel_append hseen (.cons hx .nil)

variable {ids ids' : List TypeId} (h : List.Forall₂ (Same t t') ids ids')
include h

theorem same_unionMembers :
    List.Forall₂ (Same t t') (t.unionMembers ids) (t'.unionMembers ids') :=
  same_firsts ht ht' .nil (forall₂_flatMap (fun _ _ hx => same_flatten hx) h)

/-- Unions of the same types come about in the same way. -/
theorem union_alike : (∃ x x', Same t t' x x' ∧ t.union ids = (x, t) ∧ t'.union ids' = (x', t')) ∨
    ∃ members members', List.Forall₂ (Same t t') members members' ∧
      t.union ids = t.intern (.union members) ∧ t'.union ids' = t'.intern (.union members') := by
  have hmembers := same_unionMembers ht ht' h
  unfold union
  generalize t.unionMembers ids = ms at hmembers ⊢
  generalize t'.unionMembers ids' = ms' at hmembers ⊢
  cases hmembers with
  | nil =>
    exact .inl ⟨_, _, .keyword t t' (show TypeId.never < intrinsicNames.length by decide), rfl, rfl⟩
  | cons hx hrest =>
    cases hrest with
    | nil => exact .inl ⟨_, _, hx, rfl, rfl⟩
    | cons hy hrest => exact .inr ⟨_, _, .cons hx (.cons hy hrest), rfl, rfl⟩

/-- Unions of partners are the same type. -/
theorem same_union :
    Same (t.union ids).2 (t'.union ids').2 (t.union ids).1 (t'.union ids').1 := by
  rcases union_alike ht ht' h with ⟨x, x', hx, hrun, hrun'⟩ | ⟨ms, ms', hms, hrun, hrun'⟩
  · rw [hrun, hrun']
    exact hx
  · rw [hrun, hrun']
    exact same_intern (.union hms)

theorem embeds_union (he : t.Embeds t') : (t.union ids).2.Embeds (t'.union ids').2 := by
  rcases union_alike ht ht' h with ⟨x, x', -, hrun, hrun'⟩ | ⟨ms, ms', hms, hrun, hrun'⟩
  · rw [hrun, hrun']
    exact he
  · rw [hrun, hrun']
    exact embeds_intern he (.union hms)

end Distinct

/-- What is in a distinct table is not interned again. -/
theorem intern_of_lookup (ht : t.Distinct) (h : t.lookup x = some s) : t.intern s = (x, t) := by
  cases hfind : t.find? s with
  | none => exact absurd hfind (find?_ne_none h)
  | some y =>
    rw [intern_of_find? hfind, ht y x s (lookup_of_find? hfind) h]

/-- A union that was formed is there for good. -/
theorem union_settled (hu : u.Distinct) {ids : List TypeId} (hgrows : (t.union ids).2.Grows u)
    (hids : ∀ id ∈ ids, t.Known id) : u.union ids = ((t.union ids).1, u) := by
  have htu : t.Grows u := trans_of Grows (t.grows_union ids) hgrows
  have hmembers : u.unionMembers ids = t.unionMembers ids := by
    have hflatten : ids.flatMap u.flatten = ids.flatMap t.flatten :=
      List.flatMap_congr fun id hid => by rw [flatten, flatten, htu.get? (hids id hid)]
    rw [unionMembers, unionMembers, hflatten]
  unfold union at hgrows ⊢
  rw [hmembers]
  generalize t.unionMembers ids = members at hgrows ⊢
  rcases members with _ | ⟨x, _ | ⟨y, members⟩⟩
  · rfl
  · rfl
  · exact intern_of_lookup hu (hgrows _ _ (lookup_intern t _))

/-! ## Text -/

/-- The same types are put in parentheses. -/
theorem Same.groups_eq (h : Same t t' x x') :
    t.isFunction x = t'.isFunction x' ∧ t.isUnion x = t'.isUnion x' := by
  rcases h.get?_cases with ⟨name, hx, hx'⟩ | ⟨s, s', hx, hx', alike⟩
  · rcases hx with hx | hx <;> rcases hx' with hx' | hx' <;>
      simp only [isFunction, isUnion, hx, hx', and_self]
  · cases alike <;> simp only [isFunction, isUnion, hx, hx', and_self]

section Render

variable {inner inner' : TypeId → String} (hinner : ∀ x x', Same t t' x x' → inner x = inner' x')
include hinner

/-- Functions that agree up to the types in them are written alike. -/
theorem renderFunction_same {f f' : FunctionShape}
    (hp : List.Forall₂ (Parameter.Alike (Same t t')) f.parameters f'.parameters)
    (hr : Same t t' f.result f'.result) (arrow : String) :
    renderFunction inner f arrow = renderFunction inner' f' arrow := by
  have hparameters := map_eq_of_forall₂ (f := fun p : Parameter =>
    p.name ++ optionalMark p.optional ++ ": " ++ inner p.type) (g := fun p : Parameter =>
    p.name ++ optionalMark p.optional ++ ": " ++ inner' p.type)
    (fun p p' h => by rw [h.rest, hinner _ _ h.type]) hp
  rw [renderFunction, renderFunction, renderParameters, renderParameters, hinner _ _ hr]
  exact congrArg (fun ps => "(" ++ commas ps ++ ")" ++ arrow ++ inner' f'.result) hparameters

/-- So are properties, -/
theorem renderProperty_same {p p' : Property} (h : p.Alike (Same t t') p') :
    renderProperty inner t p = renderProperty inner' t' p' := by
  obtain ⟨htype, hrest⟩ := h
  have htext := hinner _ _ htype
  rw [hrest]
  rcases htype.get?_cases with ⟨name, hx, hx'⟩ | ⟨s, s', hx, hx', alike⟩
  · rcases hx with hx | hx <;> rcases hx' with hx' |
      hx' <;> simp only [renderProperty, hx, hx', htext]
  · cases alike with
    | function hp hr =>
      cases hm : p.method <;>
        simp only [renderProperty, hx, hx', hm, htext, renderFunction_same hinner hp hr]
    | _ => simp only [renderProperty, hx, hx', htext]

/-- names with arguments, -/
theorem renderNamed_same {ids ids' : List TypeId} (h : List.Forall₂ (Same t t') ids ids')
    (name : String) : renderNamed inner name ids = renderNamed inner' name ids' := by
  have hempty : ids.isEmpty = ids'.isEmpty := by cases h <;> rfl
  rw [renderNamed, renderNamed, hempty, map_eq_of_forall₂ hinner h]

/-- and in the end all structures, one case for every kind of type. -/
theorem renderStructure_same (h : s.Alike (Same t t') s') :
    renderStructure inner t s = renderStructure inner' t' s' := by
  cases h with
  | intrinsic _ | literal _ | parameter _ => rfl
  | array h =>
    rw [renderStructure, renderStructure, h.groups_eq.1, h.groups_eq.2, hinner _ _ h]
  | union h =>
    rw [renderStructure, renderStructure]
    refine congrArg (" | ".intercalate ·) (map_eq_of_forall₂ (fun x x' hx => ?_) h)
    rw [hx.groups_eq.1, hinner _ _ hx]
  | object h =>
    have hshape := map_eq_of_forall₂ (f := (renderProperty inner t · ++ "; "))
      (g := (renderProperty inner' t' · ++ "; "))
      (fun p p' hp => by rw [renderProperty_same hinner hp]) h
    cases h with
    | nil => rfl
    | cons hp hrest => rw [renderStructure, renderStructure, hshape] <;> simp
  | function hp hr => exact renderFunction_same hinner hp hr " => "
  | interface name _ h => exact renderNamed_same hinner h name
  | synonym name _ h => exact renderNamed_same hinner h name

end Render

/-- **The same type has the same text.** -/
theorem Same.render (h : Same t t' x x') (levels : Nat) :
    t.render levels x = t'.render levels x' := by
  induction levels generalizing x x' with
  | zero => rfl
  | succ levels ih =>
    obtain ⟨s, s', left, right, alike⟩ := h.exists_alike
    rw [Interner.render, Interner.render, left, right]
    exact renderStructure_same (fun _ _ hx => ih hx) alike

end Interner

end TypeReify.Types
