import TypeReify.Types.Interner
import Mathlib.Data.List.Nodup
import Mathlib.Order.Defs.Unbundled

/-!
# A table of types that only grows

An id that stands for a type keeps standing for it, whatever is interned afterwards. As long as a
structure mentions known ids only, the table is closed: what a type mentions was there before it.

This is about `intern` and `union` of `TypeInterner`, which has no way to take a type back.

Results:
* `grows_intern`, `grows_union`: known ids keep their types.
* `closed_intern`, `closed_union`: a closed table stays closed.
* `get?_intern_cases`: interning enters the structure, and nothing else.
* `nodup_unionMembers`: no member of a union is repeated.
-/

namespace TypeReify.Types

/-- The ids that a structure mentions. -/
def Structure.mentions : Structure → List TypeId
  | .intrinsic _ | .literal _ | .parameter _ => []
  | .array element => [element]
  | .union members => members
  | .object shape => shape.map (·.type)
  | .function shape => shape.parameters.map (·.type) ++ [shape.result]
  | .interface _ _ arguments | .synonym _ _ arguments => arguments

/-- The structure of an interface or an alias. -/
def Structure.IsNamed : Structure → Prop
  | .interface .. | .synonym .. => True
  | _ => False

namespace Interner

/-- The id stands for a type. -/
def Known (t : Interner) (id : TypeId) : Prop := ∃ s, t.lookup id = some s

/-- Every known id keeps its type. -/
def Grows (t t' : Interner) : Prop := ∀ id s, t.lookup id = some s → t'.lookup id = some s

instance : IsPreorder Interner Grows where
  refl _ _ _ h := h
  trans _ _ _ h h' id s hs := h' id s (h id s hs)

/-- Whatever a type mentions is known, and was known before the type. -/
def Closed (t : Interner) : Prop :=
  ∀ id s, t.get? id = some s → ∀ x ∈ s.mentions, x < id ∧ t.Known x

variable {t t' : Interner} {id : Nat} {s : Structure}

theorem Known.mono (h : t.Known id) (hg : t.Grows t') : t'.Known id := h.imp fun s hs => hg id s hs

theorem lookup_of_get? (h : t.get? id = some s) : t.lookup id = some s := by
  unfold get? at h
  unfold lookup get?
  split at h
  · exact absurd h nofun
  · rename_i hid
    rw [if_neg hid, if_neg hid]
    exact h

/-- The structure of a known type can be read back, unless it is a keyword. -/
theorem get?_of_lookup (h : t.lookup id = some s) (hs : ∀ name, s ≠ .intrinsic name) :
    t.get? id = some s := by
  unfold lookup at h
  split at h
  · obtain ⟨name, -, rfl⟩ := Option.map_eq_some_iff.1 h
    exact absurd rfl (hs name)
  · exact h

theorem Known.of_get? (h : t.get? id = some s) : t.Known id := ⟨s, lookup_of_get? h⟩

theorem Known.lt (h : t.Known id) : id < TypeId.firstUser + t.size := by
  obtain ⟨s, hs⟩ := h
  unfold lookup get? at hs
  split at hs
  · rename_i hid
    exact Nat.lt_of_lt_of_le hid (Nat.le_add_right _ _)
  · obtain ⟨hlt, -⟩ := Array.getElem?_eq_some_iff.1 hs
    unfold size
    omega

/-- The keyword types are known from the start. -/
theorem known_of_lt (t : Interner) (h : id < intrinsicNames.length) : t.Known id := by
  have hid : id < TypeId.firstUser := Nat.lt_trans h (by decide)
  refine ⟨.intrinsic intrinsicNames[id], ?_⟩
  rw [lookup, if_pos hid, List.getElem?_eq_getElem h, Option.map_some]

/-- A growing table keeps what it knows, in full. -/
theorem Grows.get? (hg : t.Grows t') (h : t.Known id) : t'.get? id = t.get? id := by
  obtain ⟨s, hs⟩ := h
  have hs' := hg id s hs
  unfold lookup at hs hs'
  split at hs
  · rename_i hid
    rw [Interner.get?, Interner.get?, if_pos hid, if_pos hid]
  · rename_i hid
    rw [if_neg hid] at hs'
    rw [hs, hs']

theorem Grows.get?_of_some (hg : t.Grows t') (h : t.get? id = some s) : t'.get? id = some s := by
  rw [hg.get? (.of_get? h), h]

/-- Tables that grow out of each other are the same. -/
theorem Grows.antisymm (hg : t.Grows t') (hg' : t'.Grows t) : t' = t := by
  have hlookup (u : Interner) (i : Nat) : u.lookup (TypeId.firstUser + i) = u.types[i]? := by
    have hid : ¬TypeId.firstUser + i < TypeId.firstUser := Nat.not_lt.2 (Nat.le_add_right _ _)
    rw [lookup, Interner.get?, if_neg hid, if_neg hid, Nat.add_sub_cancel_left]
  have htypes : t'.types = t.types := by
    refine Array.ext_getElem? fun i => ?_
    rw [← hlookup, ← hlookup]
    exact Option.ext fun s => ⟨hg' _ s, hg _ s⟩
  cases t
  cases t'
  exact congrArg Interner.mk htypes

/-- No structure has two ids. -/
def Distinct (t : Interner) : Prop :=
  ∀ id id' s, t.lookup id = some s → t.lookup id' = some s → id = id'

/-! ## Interning -/

theorem grows_intern (t : Interner) (s : Structure) : t.Grows (t.intern s).2 :=
  fun _ _ h => lookup_of_lookup_intern s h

theorem known_intern (t : Interner) (s : Structure) : (t.intern s).2.Known (t.intern s).1 :=
  ⟨s, lookup_intern t s⟩

/-- Interning enters the structure, and nothing else. -/
theorem get?_intern_cases {x : Structure} (h : (t.intern s).2.get? id = some x) :
    t.get? id = some x ∨ x = s ∧ id = TypeId.firstUser + t.size ∧ id = (t.intern s).1 := by
  cases hfind : t.find? s with
  | some id' =>
    rw [intern_of_find? hfind] at h
    exact .inl h
  | none =>
    have hrun : t.intern s = (TypeId.firstUser + t.size, { t with types := t.types.push s }) := by
      simp [intern, hfind, size]
    rw [hrun] at h ⊢
    unfold get? at h ⊢
    split at h
    · cases h
    · rename_i hid
      rw [Array.getElem?_push] at h
      split at h
      · rename_i heq
        have hnew : id = TypeId.firstUser + t.types.size :=
          (Nat.sub_eq_iff_eq_add' (Nat.le_of_not_lt hid)).1 heq
        exact .inr ⟨(Option.some.inj h).symm, hnew, hnew⟩
      · exact .inl (by rw [if_neg hid]; exact h)

/-- The structure that was interned can be read back, unless it is a keyword. -/
theorem get?_intern (hs : ∀ name, s ≠ .intrinsic name) :
    (t.intern s).2.get? (t.intern s).1 = some s := by
  have h := lookup_intern t s
  unfold lookup at h
  split at h
  · obtain ⟨name, -, rfl⟩ := Option.map_eq_some_iff.1 h
    exact absurd rfl (hs name)
  · exact h

/-- What stands in the table is found there. -/
theorem find?_ne_none (h : t.lookup id = some s) : t.find? s ≠ none := by
  unfold lookup at h
  unfold find?
  split at h
  · obtain ⟨name, hname, rfl⟩ := Option.map_eq_some_iff.1 h
    have hidx : (intrinsic? name).isSome = true := by
      rw [intrinsic?, List.isSome_idxOf?]
      exact List.mem_of_getElem? hname
    obtain ⟨i, hi⟩ := Option.isSome_iff_exists.1 hidx
    simp [fixed?, hi]
  · rename_i hid
    rw [Interner.get?, if_neg hid] at h
    intro hnone
    have hfresh := (Option.or_eq_none_iff.1 hnone).2
    rw [Option.map_eq_none_iff, Array.findIdx?_eq_none_iff] at hfresh
    exact absurd (hfresh s (Array.mem_of_getElem? h)) (by simp)

/-- Interning makes the structure known, and nothing else. -/
theorem lookup_intern_cases {x : Structure} (h : (t.intern s).2.lookup id = some x) :
    t.lookup id = some x ∨ x = s ∧ id = (t.intern s).1 := by
  unfold lookup at h ⊢
  split at h
  · rename_i hid
    exact .inl ((if_pos hid).trans h)
  · rename_i hid
    rcases get?_intern_cases h with h | ⟨hx, -, hnew⟩
    · exact .inl ((if_neg hid).trans h)
    · exact .inr ⟨hx, hnew⟩

/-- A structure is entered only where it is new. -/
theorem distinct_intern (ht : t.Distinct) (s : Structure) : (t.intern s).2.Distinct := by
  cases hfind : t.find? s with
  | some id =>
    rw [intern_of_find? hfind]
    exact ht
  | none =>
    intro id id' x hid hid'
    rcases lookup_intern_cases hid with h | ⟨rfl, rfl⟩
    · rcases lookup_intern_cases hid' with h' | ⟨rfl, -⟩
      · exact ht id id' x h h'
      · exact absurd hfind (find?_ne_none h)
    · rcases lookup_intern_cases hid' with h' | ⟨-, rfl⟩
      · exact absurd hfind (find?_ne_none h')
      · rfl

/-- An empty table knows the keywords only. -/
theorem lookup_empty (h : empty.lookup id = some s) :
    ∃ name, s = .intrinsic name ∧ intrinsicNames[id]? = some name := by
  unfold lookup at h
  split at h
  · obtain ⟨name, hname, rfl⟩ := Option.map_eq_some_iff.1 h
    exact ⟨name, rfl, hname⟩
  · rename_i hid
    rw [Interner.get?, if_neg hid] at h
    exact absurd h (by simp [empty])

theorem distinct_empty : empty.Distinct := by
  intro id id' s hid hid'
  obtain ⟨name, rfl, hn⟩ := lookup_empty hid
  obtain ⟨name', heq, hn'⟩ := lookup_empty hid'
  obtain rfl := Structure.intrinsic.inj heq
  have hnodup : intrinsicNames.Nodup := by decide
  obtain ⟨hlt, -⟩ := List.getElem?_eq_some_iff.1 hn
  exact (List.getElem?_inj hlt hnodup).1 (hn.trans hn'.symm)

/-- A closed table stays closed if what is interned mentions known types. -/
theorem closed_intern (ht : t.Closed) (hs : ∀ x ∈ s.mentions, t.Known x) :
    (t.intern s).2.Closed := by
  intro id x hx y hy
  rcases get?_intern_cases hx with hold | ⟨rfl, hid, -⟩
  · obtain ⟨hlt, hknown⟩ := ht id x hold y hy
    exact ⟨hlt, hknown.mono (grows_intern t s)⟩
  · have hknown := hs y hy
    exact ⟨hid ▸ hknown.lt, hknown.mono (grows_intern t x)⟩

/-! ## Unions -/

theorem mem_firsts {seen xs : List TypeId} {x : TypeId} (h : x ∈ firsts seen xs) :
    x ∈ seen ∨ x ∈ xs := by
  induction xs generalizing seen with
  | nil => exact .inl h
  | cons y ys ih =>
    rcases ih h with hseen | hys
    · split at hseen
      · exact .inl hseen
      · rcases List.mem_append.1 hseen with hseen | hy
        · exact .inl hseen
        · exact .inr (List.mem_cons.2 (.inl (List.mem_singleton.1 hy)))
    · exact .inr (List.mem_cons_of_mem y hys)

/-- A repetition is dropped. -/
theorem nodup_firsts {seen xs : List TypeId} (h : seen.Nodup) : (firsts seen xs).Nodup := by
  induction xs generalizing seen with
  | nil => exact h
  | cons x xs ih =>
    refine ih ?_
    split
    · exact h
    · rename_i hnew
      exact List.concat_eq_append ▸ h.concat (mt List.contains_iff_mem.2 hnew)

theorem firsts_append (seen xs ys : List TypeId) :
    firsts seen (xs ++ ys) = firsts (firsts seen xs) ys := by
  induction xs generalizing seen with
  | nil => rfl
  | cons x xs ih => exact ih _

/-- Where nothing is repeated, nothing is dropped. -/
theorem firsts_of_nodup {seen xs : List TypeId} (h : (seen ++ xs).Nodup) :
    firsts seen xs = seen ++ xs := by
  induction xs generalizing seen with
  | nil => rw [firsts, List.append_nil]
  | cons x xs ih =>
    have hnew : x ∉ seen := fun hx =>
      (List.nodup_append.1 h).2.2 x hx x List.mem_cons_self rfl
    rw [← List.singleton_append, ← List.append_assoc] at h ⊢
    rw [← ih h, List.singleton_append, firsts, if_neg (by simpa using hnew)]

theorem nodup_unionMembers (t : Interner) (ids : List TypeId) : (t.unionMembers ids).Nodup :=
  nodup_firsts List.nodup_nil

theorem known_unionMembers (ht : t.Closed) {ids : List TypeId} (h : ∀ id ∈ ids, t.Known id) :
    ∀ x ∈ t.unionMembers ids, t.Known x := by
  intro x hx
  rcases mem_firsts hx with hx | hx
  · exact absurd hx List.not_mem_nil
  · obtain ⟨id, hid, hx⟩ := List.mem_flatMap.1 hx
    unfold flatten at hx
    split at hx
    · rename_i members hget
      exact (ht id _ hget x hx).2
    · exact List.mem_singleton.1 hx ▸ h id hid

/-- A union answers a type that was there, or is interned. -/
theorem union_cases (t : Interner) (ids : List TypeId) :
    t.union ids = (TypeId.never, t) ∨ (∃ x ∈ t.unionMembers ids, t.union ids = (x, t)) ∨
      t.union ids = t.intern (.union (t.unionMembers ids)) := by
  unfold union
  split
  · exact .inl rfl
  · rename_i id hid
    exact .inr (.inl ⟨id, by rw [hid]; exact List.mem_cons_self, rfl⟩)
  · exact .inr (.inr rfl)

theorem grows_union (t : Interner) (ids : List TypeId) : t.Grows (t.union ids).2 := by
  rcases t.union_cases ids with h | ⟨x, -, h⟩ | h
  · rw [h]
    exact refl t
  · rw [h]
    exact refl t
  · rw [h]
    exact grows_intern t _

theorem distinct_union (ht : t.Distinct) (ids : List TypeId) : (t.union ids).2.Distinct := by
  rcases t.union_cases ids with h | ⟨x, -, h⟩ | h
  · rw [h]
    exact ht
  · rw [h]
    exact ht
  · rw [h]
    exact distinct_intern ht _

section Union

variable (ht : t.Closed) {ids : List TypeId} (h : ∀ id ∈ ids, t.Known id)
include ht h

theorem closed_union : (t.union ids).2.Closed := by
  rcases t.union_cases ids with hrun | ⟨x, -, hrun⟩ | hrun
  · rw [hrun]
    exact ht
  · rw [hrun]
    exact ht
  · rw [hrun]
    exact closed_intern ht (known_unionMembers ht h)

theorem known_union : (t.union ids).2.Known (t.union ids).1 := by
  rcases t.union_cases ids with hrun | ⟨x, hx, hrun⟩ | hrun
  · rw [hrun]
    exact t.known_of_lt (show TypeId.never < intrinsicNames.length by decide)
  · rw [hrun]
    exact known_unionMembers ht h x hx
  · rw [hrun]
    exact known_intern t _

end Union

/-- A union enters no structure but a union. -/
theorem get?_union_cases {ids : List TypeId} {x : Structure}
    (h : (t.union ids).2.get? id = some x) :
    t.get? id = some x ∨ x = .union (t.unionMembers ids) := by
  rcases t.union_cases ids with hrun | ⟨y, -, hrun⟩ | hrun
  · rw [hrun] at h
    exact .inl h
  · rw [hrun] at h
    exact .inl h
  · rw [hrun] at h
    exact (get?_intern_cases h).imp_right And.left

end Interner

end TypeReify.Types
