import TypeReify.Proofs.Types.Calls
import TypeReify.Proofs.Types.Same
import TypeReify.Proofs.Types.Tree
import Mathlib.Data.List.Perm.Subperm

/-!
# Unions of unions

Forming a union opens the unions among its members, but it does not look into what it finds there.
In a table where unions are only made by forming them this is enough: no union in it has a union
among its members, so the members of a union are its constituents, however deep they were nested
when it was formed (`constituents_eq_flatten`).

This is about `union` of `TypeInterner`, which opens its arguments one level deep.

**`union_log`**: over a run of such calls, unions are flat, have their constituents for members, and
do not depend on nesting or repetition.

Results:
* `firsts_eq_eraseDups`: of a list without repetitions, the first occurrences are kept.
* `union_again`: a union that is formed again has its old id.
* `unionMembers_union`: a union among the members of a union stands for its own members.
-/

namespace TypeReify.Types.Interner

/-- The types that a type is the union of, however deep unions are nested in it. -/
def constituents (t : Interner) (id : TypeId) : List TypeId :=
  match t.get? id with
  | some (.union members) => members.flatMap fun m => if m < id then t.constituents m else [m]
  | _ => [id]
termination_by id

/-- A call that interns no union but by forming it, over types that are known. A union of one type
interns nothing. -/
def Orderly (t : Interner) : Call → Prop
  | .intern s => (∀ members, s ≠ .union members) ∧ ∀ x ∈ s.mentions, t.Known x
  | .union ids => 2 ≤ (t.unionMembers ids).length → ∀ x ∈ t.unionMembers ids, t.Known x

instance (t : Interner) (ids : List TypeId) : Decidable (t.Orderly (.union ids)) :=
  inferInstanceAs (Decidable (2 ≤ (t.unionMembers ids).length →
    ∀ x ∈ t.unionMembers ids, t.Known x))

/-- All calls of a run are orderly. -/
def OrderlyRun (t : Interner) : List Call → Prop
  | [] => True
  | c :: calls => t.Orderly c ∧ (t.call c).2.OrderlyRun calls

/-- What orderly calls keep of a table: types come after their parts and have one id each, and a
union has several members, all different and none of them a union. -/
structure Settled (t : Interner) : Prop where
  closed : t.Closed
  distinct : t.Distinct
  flat : t.Flat
  nodup : ∀ id members, t.get? id = some (.union members) → members.Nodup

variable {t u : Interner} {c : Call} {calls : List Call} {ids : List TypeId} {id x y : TypeId}

/-! ## First occurrences -/

theorem firsts_eq (seen xs : List TypeId) :
    firsts seen xs = seen ++ (xs.removeAll seen).eraseDups := by
  induction xs generalizing seen with
  | nil => simp [firsts]
  | cons x xs ih =>
    rw [firsts, ih]
    by_cases hx : x ∈ seen
    · simp [hx, List.removeAll]
    · have hcons : (x :: xs).removeAll seen = x :: xs.removeAll seen := by simp [List.removeAll, hx]
      have hfilter : xs.removeAll (seen ++ [x]) = (xs.removeAll seen).filter fun y => !y == x := by
        rw [List.removeAll, List.removeAll, List.filter_filter]
        refine List.filter_congr fun y _ => ?_
        by_cases hy : y = x <;> simp [hy]
      rw [if_neg (mt List.contains_iff_mem.1 hx), hcons, List.eraseDups_cons, hfilter,
        List.append_assoc, List.singleton_append]

/-- The first occurrence of every element, in order. -/
theorem firsts_eq_eraseDups (xs : List TypeId) : firsts [] xs = xs.eraseDups := by
  simpa [List.removeAll] using firsts_eq [] xs

theorem mem_firsts_iff {seen xs : List TypeId} : x ∈ firsts seen xs ↔ x ∈ seen ∨ x ∈ xs := by
  by_cases hx : x ∈ seen <;> simp [firsts_eq, List.mem_eraseDups, List.removeAll, hx]

theorem firsts_of_subset {seen xs : List TypeId} (h : ∀ x ∈ xs, x ∈ seen) :
    firsts seen xs = seen := by
  have hnone : xs.removeAll seen = [] := by simpa [List.removeAll] using h
  rw [firsts_eq, hnone, List.eraseDups_nil, List.append_nil]

/-- Repetitions may be dropped before. -/
theorem firsts_firsts (seen acc xs : List TypeId) :
    firsts seen (firsts acc xs) = firsts (firsts seen acc) xs := by
  induction xs generalizing acc with
  | nil => rfl
  | cons x xs ih =>
    rw [firsts, ih, firsts]
    by_cases hx : x ∈ acc
    · have hmem : x ∈ firsts seen acc := mem_firsts_iff.2 (.inr hx)
      rw [if_pos (List.contains_iff_mem.2 hx), if_pos (List.contains_iff_mem.2 hmem)]
    · rw [if_neg (mt List.contains_iff_mem.1 hx), firsts_append]
      rfl

/-! ## Settled tables -/

theorem settled_empty : empty.Settled where
  closed id s h := absurd h (by simp [get?, empty])
  distinct := distinct_empty
  flat id members h := absurd h (by simp [get?, empty])
  nodup id members h := absurd h (by simp [get?, empty])

theorem Settled.intern (h : t.Settled) {s : Structure} (hmentions : ∀ x ∈ s.mentions, t.Known x)
    (hs : ∀ members, s = .union members →
      2 ≤ members.length ∧ members.Nodup ∧ ∀ m ∈ members, t.isUnion m = false) :
    (t.intern s).2.Settled where
  closed := closed_intern h.closed hmentions
  distinct := distinct_intern h.distinct s
  flat := h.flat.intern h.closed fun members heq => by
    obtain ⟨hlength, -, hmembers⟩ := hs members heq
    rw [heq] at hmentions
    exact ⟨hlength, fun m hm => ⟨hmentions m hm, hmembers m hm⟩⟩
  nodup id members hid := by
    rcases get?_intern_cases hid with hold | ⟨heq, -⟩
    · exact h.nodup id members hold
    · exact (hs members heq.symm).2.1

theorem Settled.call (h : t.Settled) (hc : t.Orderly c) : (t.call c).2.Settled := by
  cases c with
  | intern s => exact h.intern hc.2 fun members heq => absurd heq (hc.1 members)
  | union ids =>
    rcases t.union_cases_two ids with ⟨id, hrun⟩ | ⟨hlength, hrun⟩
    · rw [Interner.call, hrun]
      exact h
    · rw [Interner.call, hrun]
      refine h.intern (hc hlength) fun members heq => ?_
      obtain rfl := Structure.union.inj heq
      exact ⟨hlength, nodup_unionMembers t ids, fun m hm => isUnion_of_mem_unionMembers h.flat hm⟩

theorem Settled.after (h : t.Settled) (hrun : t.OrderlyRun calls) : (t.after calls).Settled := by
  induction calls generalizing t with
  | nil => exact h
  | cons c calls ih => exact ih (h.call hrun.1) hrun.2

theorem orderlyRun_append {more : List Call} :
    t.OrderlyRun (calls ++ more) ↔ t.OrderlyRun calls ∧ (t.after calls).OrderlyRun more := by
  induction calls generalizing t with
  | nil => exact (iff_of_eq (true_and _)).symm
  | cons c calls ih => exact (and_congr_right fun _ => ih).trans and_assoc.symm

theorem isUnion_eq_false_iff :
    t.isUnion id = false ↔ ∀ members, t.get? id ≠ some (.union members) := by
  unfold isUnion
  split
  · rename_i members hid
    simp [hid]
  · rename_i hother
    exact iff_of_true rfl hother

theorem isUnion_cases (t : Interner) (id : TypeId) :
    (∃ members, t.get? id = some (.union members)) ∨ t.isUnion id = false := by
  unfold isUnion
  split
  · rename_i members hid
    exact .inl ⟨members, hid⟩
  · exact .inr rfl

theorem flatten_of_get? {members : List TypeId} (h : t.get? id = some (.union members)) :
    t.flatten id = members := by
  rw [flatten, h]

theorem flatten_of_not_isUnion (h : t.isUnion id = false) : t.flatten id = [id] := by
  unfold flatten
  split
  · rename_i members hid
    exact absurd hid (isUnion_eq_false_iff.1 h members)
  · rfl

theorem constituents_of_not_isUnion (h : t.isUnion id = false) : t.constituents id = [id] := by
  unfold constituents
  split
  · rename_i members hid
    exact absurd hid (isUnion_eq_false_iff.1 h members)
  · rfl

/-- Below the members of a union there is nothing left to open. -/
theorem constituents_eq_flatten (h : t.Settled) (id : TypeId) :
    t.constituents id = t.flatten id := by
  rcases t.isUnion_cases id with ⟨members, hid⟩ | hid
  · have hmembers : ∀ m ∈ members, (if m < id then t.constituents m else [m]) = [m] := by
      intro m hm
      rw [constituents_of_not_isUnion ((h.flat id members hid).2 m hm), ite_self]
    rw [constituents, flatten_of_get? hid, hid]
    exact (List.flatMap_congr hmembers).trans (List.flatMap_singleton' members)
  · rw [constituents_of_not_isUnion hid, flatten_of_not_isUnion hid]

theorem Settled.nodup_flatten (h : t.Settled) (id : TypeId) : (t.flatten id).Nodup := by
  unfold flatten
  split
  · rename_i members hid
    exact h.nodup id members hid
  · exact List.nodup_singleton id

/-! ## Forming a union again -/

/-- Types with the members of one type for theirs form this type. -/
theorem union_of_flatten (h : t.Settled) (hids : t.unionMembers ids = t.flatten id) :
    t.union ids = (id, t) := by
  unfold union
  rw [hids]
  rcases t.isUnion_cases id with ⟨members, hid⟩ | hid
  · have hlength := (h.flat id members hid).1
    rw [flatten_of_get? hid]
    match members, hlength with
    | x :: y :: members, _ => exact intern_of_lookup h.distinct (lookup_of_get? hid)
  · rw [flatten_of_not_isUnion hid]

theorem mem_unionMembers_iff : x ∈ t.unionMembers ids ↔ ∃ id ∈ ids, x ∈ t.flatten id := by
  rw [unionMembers, mem_firsts_iff, List.mem_flatMap]
  exact or_iff_right List.not_mem_nil

theorem Settled.flatten_ne_nil (h : t.Settled) (id : TypeId) : t.flatten id ≠ [] := by
  unfold flatten
  split
  · rename_i members hid
    intro hnil
    exact absurd (h.flat id members hid).1 (by simp [hnil])
  · exact List.cons_ne_nil _ _

/-- The members of a union of some types are the first occurrences among theirs. -/
theorem flatten_of_union (h : t.Settled) (hne : ids ≠ []) (hids : t.union ids = (id, t)) :
    t.flatten id = t.unionMembers ids := by
  unfold union at hids
  split at hids
  · rename_i hnil
    obtain ⟨x, xs, rfl⟩ := List.exists_cons_of_ne_nil hne
    obtain ⟨y, hy⟩ := List.exists_mem_of_ne_nil _ (h.flatten_ne_nil x)
    have hmem : y ∈ t.unionMembers (x :: xs) := mem_unionMembers_iff.2 ⟨x, List.mem_cons_self, hy⟩
    exact absurd (hnil ▸ hmem) List.not_mem_nil
  · rename_i x hone
    obtain rfl : x = id := congrArg Prod.fst hids
    rw [hone, flatten_of_not_isUnion
      (isUnion_of_mem_unionMembers h.flat (hone ▸ List.mem_singleton_self x))]
  · have hget : (t.intern (.union (t.unionMembers ids))).2.get?
        (t.intern (.union (t.unionMembers ids))).1 = some (.union (t.unionMembers ids)) :=
      get?_intern nofun
    rw [hids] at hget
    exact flatten_of_get? hget

/-- Where a union comes to a single type, it was formed of this type alone. -/
theorem mem_unionMembers_of_length_lt (h : t.Settled) (hone : (t.unionMembers ids).length < 2)
    (hid : id ∈ ids) : id ∈ t.unionMembers ids := by
  have hsub : t.flatten id ⊆ t.unionMembers ids := fun x hx => mem_unionMembers_iff.2 ⟨id, hid, hx⟩
  rcases t.isUnion_cases id with ⟨members, hget⟩ | hid
  · have hlength : (t.flatten id).length ≤ (t.unionMembers ids).length :=
      ((h.nodup_flatten id).subperm hsub).length_le
    rw [flatten_of_get? hget] at hlength
    exact absurd (h.flat id members hget).1 (by omega)
  · exact hsub (by rw [flatten_of_not_isUnion hid]; exact List.mem_singleton_self id)

/-- **A union that is formed again has its old id**, and forming it adds nothing. -/
theorem union_again (h : t.Settled) (hc : t.Orderly (.union ids)) (hu : u.Settled)
    (hg : (t.union ids).2.Grows u) : u.union ids = ((t.union ids).1, u) := by
  by_cases hlength : 2 ≤ (t.unionMembers ids).length
  · refine union_settled hu.distinct hg fun id hid => ?_
    rcases t.isUnion_cases id with ⟨members, hget⟩ | hother
    · exact .of_get? hget
    · refine hc hlength id (mem_unionMembers_iff.2 ⟨id, hid, ?_⟩)
      rw [flatten_of_not_isUnion hother]
      exact List.mem_singleton_self id
  · -- All ids are one, and whatever this one stands for by now, it is all there is to open.
    rcases ids with _ | ⟨id, ids⟩
    · rfl
    · have hmem (x : TypeId) (hx : x ∈ id :: ids) : x ∈ t.unionMembers (id :: ids) :=
        mem_unionMembers_of_length_lt h (Nat.lt_of_not_le hlength) hx
      have hpos := List.length_pos_of_mem (hmem id List.mem_cons_self)
      obtain ⟨m, hm⟩ := List.length_eq_one_iff.1
        (show (t.unionMembers (id :: ids)).length = 1 by omega)
      have hall (x : TypeId) (hx : x ∈ id :: ids) : x = m := List.mem_singleton.1 (hm ▸ hmem x hx)
      have hanswer : (t.union (id :: ids)).1 = m := by rw [union, hm]
      have hopen : ∀ y ∈ ids.flatMap u.flatten, y ∈ u.flatten m := by
        intro y hy
        obtain ⟨x, hx, hy⟩ := List.mem_flatMap.1 hy
        exact hall x (List.mem_cons_of_mem id hx) ▸ hy
      have hfirst : firsts [] (u.flatten m) = u.flatten m := firsts_of_nodup (hu.nodup_flatten m)
      rw [hanswer]
      refine union_of_flatten hu ?_
      rw [unionMembers, List.flatMap_cons, hall id List.mem_cons_self, firsts_append, hfirst,
        firsts_of_subset hopen]

/-- **A union among the members of a union stands for its own members**, wherever it stands. -/
theorem unionMembers_union (h : t.Settled) {xs : List TypeId} (hne : xs ≠ [])
    (hx : t.union xs = (x, t)) (ys zs : List TypeId) :
    t.unionMembers (ys ++ x :: zs) = t.unionMembers (ys ++ xs ++ zs) := by
  have hflatten : t.flatten x = firsts [] (xs.flatMap t.flatten) := flatten_of_union h hne hx
  simp only [unionMembers, List.flatMap_append, List.flatMap_cons, firsts_append, hflatten,
    firsts_firsts]
  rfl

/-! ## Runs of orderly calls -/

/-- The union that a call formed is there at the end of the run. -/
theorem Answers.union_after (hrun : empty.OrderlyRun calls)
    (h : empty.Answers calls (.union ids) id) :
    (empty.after calls).union ids = (id, empty.after calls) := by
  obtain ⟨before, later, rfl, rfl⟩ := h.exists_before
  obtain ⟨hbefore, hc, hlater⟩ := orderlyRun_append.1 hrun
  have hsettled := settled_empty.after hbefore
  rw [after_append]
  exact union_again hsettled hc ((hsettled.call hc).after hlater) (grows_after _ later)

/-- **Unions over a run**, where unions are only made by forming them. A union has at least two
members, all different, and none of them is a union. The members of the union of some types are the
first occurrences of their constituents in order. Hence it does not matter how types are grouped:
where the union of `xs` was formed, it may stand for `xs` among the members of any other union,
which has the same id either way, whatever was called in between and whichever was formed first. -/
theorem union_log (hrun : empty.OrderlyRun calls) :
    let t := empty.after calls
    (∀ id members, t.get? id = some (.union members) →
        2 ≤ members.length ∧ members.Nodup ∧
          ∀ m ∈ members, ∀ inner, t.get? m ≠ some (.union inner)) ∧
      ∀ xs x, xs ≠ [] → empty.Answers calls (.union xs) x →
        t.flatten x = (xs.flatMap t.constituents).eraseDups ∧
          ∀ ys zs i j, empty.Answers calls (.union (ys ++ x :: zs)) i →
            empty.Answers calls (.union (ys ++ xs ++ zs)) j → i = j := by
  intro t
  have ht : t.Settled := settled_empty.after hrun
  refine ⟨fun id members hid => ?_, fun xs x hne hx => ⟨?_, fun ys zs i j hi hj => ?_⟩⟩
  · obtain ⟨hlength, hmembers⟩ := ht.flat id members hid
    exact ⟨hlength, ht.nodup id members hid, fun m hm => isUnion_eq_false_iff.1 (hmembers m hm)⟩
  · rw [flatten_of_union ht hne (hx.union_after hrun), unionMembers, firsts_eq_eraseDups,
      funext (constituents_eq_flatten ht)]
  · have hmembers := unionMembers_union ht hne (hx.union_after hrun) ys zs
    have hunion : t.union (ys ++ x :: zs) = t.union (ys ++ xs ++ zs) := by
      rw [union, union, hmembers]
    rw [hi.union_after hrun, hj.union_after hrun] at hunion
    exact congrArg Prod.fst hunion

/-- The union of `string` and `number` is grouped with the literal `"a"`, and then their members are
written one after the other. -/
def groupedCalls : List Call :=
  [.intern (.literal (.string "a")), .union [TypeId.string, TypeId.number],
    .union [101, 100, TypeId.string], .union [TypeId.string, TypeId.number, 100, TypeId.string]]

theorem union_log_groupedCalls :
    empty.OrderlyRun groupedCalls ∧
      empty.Answers groupedCalls (.union [TypeId.string, TypeId.number]) 101 ∧
        (empty.after groupedCalls).flatten 101 =
          ([TypeId.string, TypeId.number].flatMap
            (empty.after groupedCalls).constituents).eraseDups ∧
        ∀ i j, empty.Answers groupedCalls (.union [101, 100, TypeId.string]) i →
          empty.Answers groupedCalls
            (.union [TypeId.string, TypeId.number, 100, TypeId.string]) j → i = j := by
  have hrun : empty.OrderlyRun groupedCalls :=
    ⟨⟨nofun, nofun⟩, by decide +kernel, by decide +kernel, by decide +kernel, trivial⟩
  have hpair : empty.Answers groupedCalls (.union [TypeId.string, TypeId.number]) 101 :=
    ⟨true, by decide +kernel⟩
  obtain ⟨hmembers, hgroup⟩ := (union_log hrun).2 _ 101 (List.cons_ne_nil _ _) hpair
  exact ⟨hrun, hpair, hmembers, hgroup [] [100, TypeId.string]⟩

end TypeReify.Types.Interner
