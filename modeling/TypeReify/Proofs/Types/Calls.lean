import TypeReify.Proofs.Types.Interner
import Mathlib.Data.List.Basic

/-!
# Runs of calls

A table of types is filled by calls of `intern` and `union`, in any order and with any ids. The log
of a run has every call with the id it answered, and says which calls made the table longer: these
hand out a new id, all others answer with an id that was there.

This is about `intern`, `union` and `lookup`, called from outside in any order.

**`intern_log`**: over any run, interned structures and ids correspond one to one, ids keep their
types, and new ids are handed out one after the other.

Results:
* `call_cases`: a call leaves the table as it is, or enters one type under the next id.
* `Answers.lookup`: what was interned keeps its id.


-/

namespace TypeReify.Types

/-- A call that may enter a type. -/
inductive Call
  | intern (s : Structure)
  | union (ids : List TypeId)
  deriving DecidableEq, Repr

/-- A call with its answer. -/
structure Call.Entry where
  call : Call
  id : TypeId
  /-- The call made the table longer. -/
  isNew : Bool
  deriving DecidableEq, Repr

namespace Interner

/-- The answer of a call, and the table it leaves. -/
def call (t : Interner) : Call → TypeId × Interner
  | .intern s => t.intern s
  | .union ids => t.union ids

/-- The table that calls leave. -/
def after (t : Interner) (calls : List Call) : Interner := calls.foldl (fun t c => (t.call c).2) t

/-- The calls of a run with their answers. -/
def log (t : Interner) : List Call → List Call.Entry
  | [] => []
  | c :: calls => ⟨c, (t.call c).1, decide (t.size < (t.call c).2.size)⟩ :: (t.call c).2.log calls

/-- During the run, the call was made and had this answer. -/
def Answers (t : Interner) (calls : List Call) (c : Call) (id : TypeId) : Prop :=
  ∃ isNew, ⟨c, id, isNew⟩ ∈ t.log calls

variable {t t' : Interner} {c : Call} {calls : List Call} {id : TypeId} {s : Structure}

/-! ## One call -/

theorem intern_cases (t : Interner) (s : Structure) :
    (t.intern s).2 = t ∨
      (t.intern s).1 = TypeId.firstUser + t.size ∧ (t.intern s).2.size = t.size + 1 := by
  cases hfind : t.find? s with
  | some id => exact .inl (by rw [intern_of_find? hfind])
  | none => exact .inr (by simp [intern, hfind, size])

/-- A call leaves the table as it is, or enters one type under the next id. -/
theorem call_cases (t : Interner) (c : Call) :
    (t.call c).2 = t ∨
      (t.call c).1 = TypeId.firstUser + t.size ∧ (t.call c).2.size = t.size + 1 := by
  cases c with
  | intern s => exact t.intern_cases s
  | union ids =>
    rcases t.union_cases ids with h | ⟨x, -, h⟩ | h
    · exact .inl (congrArg Prod.snd h)
    · exact .inl (congrArg Prod.snd h)
    · show (t.union ids).2 = t ∨ _
      rw [call, h]
      exact t.intern_cases _

theorem grows_call (t : Interner) (c : Call) : t.Grows (t.call c).2 := by
  cases c with
  | intern s => exact grows_intern t s
  | union ids => exact grows_union t ids

theorem distinct_call (h : t.Distinct) (c : Call) : (t.call c).2.Distinct := by
  cases c with
  | intern s => exact distinct_intern h s
  | union ids => exact distinct_union h ids

/-! ## Runs -/

theorem after_append (t : Interner) (calls more : List Call) :
    t.after (calls ++ more) = (t.after calls).after more := List.foldl_append

theorem grows_after (t : Interner) (calls : List Call) : t.Grows (t.after calls) := by
  induction calls generalizing t with
  | nil => exact refl t
  | cons c calls ih => exact trans_of Grows (t.grows_call c) (ih _)

theorem distinct_after (h : t.Distinct) (calls : List Call) : (t.after calls).Distinct := by
  induction calls generalizing t with
  | nil => exact h
  | cons c calls ih => exact ih (distinct_call h c)

/-- An answer was given by the table that the calls before had left. -/
theorem Answers.exists_before (h : t.Answers calls c id) :
    ∃ before later, calls = before ++ c :: later ∧ id = ((t.after before).call c).1 := by
  obtain ⟨isNew, h⟩ := h
  induction calls generalizing t with
  | nil => exact absurd h List.not_mem_nil
  | cons first calls ih =>
    rcases List.mem_cons.1 h with heq | h
    · obtain ⟨rfl, rfl, -⟩ := Call.Entry.mk.inj heq
      exact ⟨[], calls, rfl, rfl⟩
    · obtain ⟨before, later, rfl, hid⟩ := ih h
      exact ⟨first :: before, later, rfl, hid⟩

/-- What was interned during a run has its id at the end. -/
theorem Answers.lookup (h : t.Answers calls (.intern s) id) :
    (t.after calls).lookup id = some s := by
  obtain ⟨before, later, rfl, rfl⟩ := h.exists_before
  rw [after_append]
  exact grows_after _ later _ _ (lookup_intern (t.after before) s)

/-- New ids are handed out one after the other, and there are as many of them as types entered. -/
theorem newIds_eq (t : Interner) (calls : List Call) :
    ∃ n, (t.after calls).size = t.size + n ∧
      ((t.log calls).filter (·.isNew)).map (·.id) = List.range' (TypeId.firstUser + t.size) n := by
  induction calls generalizing t with
  | nil => exact ⟨0, rfl, rfl⟩
  | cons c calls ih =>
    obtain ⟨n, hsize, hids⟩ := ih (t.call c).2
    rcases t.call_cases c with hsame | ⟨hid, hlonger⟩
    · rw [hsame] at hsize hids
      refine ⟨n, ?_, ?_⟩
      · rw [after, List.foldl_cons, hsame]
        exact hsize
      · simp [log, hsame, hids]
    · refine ⟨n + 1, ?_, ?_⟩
      · rw [hlonger, Nat.add_assoc, Nat.add_comm 1] at hsize
        exact hsize
      · simp [log, hlonger, hids, hid, List.range'_succ, Nat.add_assoc]

/-- **Structures and ids over a run.** Two structures that were interned have the same id just if
they are equal, and each is found behind its id, whatever calls came between or later. Ids keep
their types in all later calls. The new ids of a run are those from the first user id on, in order,
as many as there are types in the table, so that these ids and no others above the keywords stand
for a type. -/
theorem intern_log (calls more : List Call) :
    let t := empty.after calls
    (∀ a b i j, empty.Answers calls (.intern a) i → empty.Answers calls (.intern b) j →
        (i = j ↔ a = b)) ∧
      (∀ a i, empty.Answers calls (.intern a) i → t.lookup i = some a) ∧
      (∀ id s, t.lookup id = some s → (empty.after (calls ++ more)).lookup id = some s) ∧
      ((empty.log calls).filter (·.isNew)).map (·.id) = List.range' TypeId.firstUser t.size ∧
      ∀ id, TypeId.firstUser ≤ id → (t.Known id ↔ id < TypeId.firstUser + t.size) := by
  intro t
  have hdistinct : t.Distinct := distinct_after distinct_empty calls
  refine ⟨fun a b i j ha hb => ⟨?_, ?_⟩, fun a i ha => ha.lookup, fun id s h => ?_, ?_,
    fun id hid => ⟨Known.lt, fun hlt => ?_⟩⟩
  · rintro rfl
    exact Option.some.inj (ha.lookup.symm.trans hb.lookup)
  · rintro rfl
    exact hdistinct i j a ha.lookup hb.lookup
  · rw [after_append]
    exact grows_after t more id s h
  · obtain ⟨n, hsize, hids⟩ := newIds_eq empty calls
    have hn : t.size = n := hsize.trans (Nat.zero_add n)
    rw [hn]
    exact hids
  · have hindex : id - TypeId.firstUser < t.types.size := Nat.sub_lt_left_of_lt_add hid hlt
    refine ⟨t.types[id - TypeId.firstUser], ?_⟩
    rw [lookup, if_neg (Nat.not_lt.2 hid), get?, if_neg (Nat.not_lt.2 hid),
      Array.getElem?_eq_getElem hindex]

end Interner

end TypeReify.Types
