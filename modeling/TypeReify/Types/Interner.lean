import TypeReify.Types.Basic

/-!
# The type table

`intern` answers the id of a structure and enters it where it is new, so equal structures share an
id. The keyword types have fixed ids from 0; all others are numbered from 100 in the order in which
they were first interned.

Model of `TypeInterner`: `intern`, `intrinsic`, `lookup`, `get` and `union`. The source keeps a map
from structures to ids beside the vector of structures. Here there is the vector alone, and `find?`
searches it from the front: `intern` writes both and nothing else writes either, so the map holds
for a structure of the vector the position where it stands, which is the one that the search finds.

Results:
* `lookup_intern`: the id of a structure leads back to it.
* `lookup_of_lookup_intern`: interning leaves every earlier id as it was.
* `lookup_of_find?`: the table finds a structure only under an id that stands for it.

Out of scope: the map itself, and so its agreement with the vector.
-/

namespace TypeReify.Types

/-- The keyword types in the order of their ids. -/
def intrinsicNames : List String :=
  ["any", "unknown", "never", "void", "undefined", "null", "boolean", "number", "string", "bigint",
    "symbol", "object", "true", "false"]

namespace TypeId

def any : TypeId := 0
def never : TypeId := 2
def undefined : TypeId := 4
def null : TypeId := 5
def number : TypeId := 7
def string : TypeId := 8
def true : TypeId := 12
def false : TypeId := 13

/-- The first id of a type that is no keyword. -/
def firstUser : TypeId := 100

end TypeId

/-- The id of a keyword type. -/
def intrinsic? (name : String) : Option TypeId := intrinsicNames.idxOf? name

/-- The structures that were interned, in order. -/
structure Interner where
  /-- The types from id 100 on. -/
  types : Array Structure
  deriving Repr

namespace Interner

def empty : Interner := ⟨#[]⟩

instance : Inhabited Interner := ⟨empty⟩

/-- How many types there are besides the keywords. -/
def size (t : Interner) : Nat := t.types.size

/-- The fixed id of a structure that needs no entry. -/
def fixed? : Structure → Option TypeId
  | .intrinsic name => intrinsic? name
  | _ => none

/-- The id of a structure in the table. -/
def find? (t : Interner) (s : Structure) : Option TypeId :=
  (fixed? s).or ((t.types.findIdx? (· == s)).map (TypeId.firstUser + ·))

/-- The id of a structure, and the table with the structure in it. -/
def intern (t : Interner) (s : Structure) : TypeId × Interner :=
  match t.find? s with
  | some id => (id, t)
  | none => (TypeId.firstUser + t.types.size, { t with types := t.types.push s })

/-- The structure of a type that is no keyword. -/
def get? (t : Interner) (id : TypeId) : Option Structure :=
  if id < TypeId.firstUser then none else t.types[id - TypeId.firstUser]?

/-- The structure of any type. -/
def lookup (t : Interner) (id : TypeId) : Option Structure :=
  if id < TypeId.firstUser then intrinsicNames[id]?.map .intrinsic else t.get? id

/-- A member of a union as the list of its own members. -/
def flatten (t : Interner) (id : TypeId) : List TypeId :=
  match t.get? id with
  | some (.union members) => members
  | _ => [id]

/-- The first occurrence of every element, in order. -/
def firsts : (seen : List TypeId) → List TypeId → List TypeId
  | seen, [] => seen
  | seen, x :: xs => firsts (if seen.contains x then seen else seen ++ [x]) xs

/-- The members of a union, unions among them opened and repetitions dropped. -/
def unionMembers (t : Interner) (ids : List TypeId) : List TypeId :=
  firsts [] (ids.flatMap t.flatten)

/-- `union`: no member gives `never`, one member is the type itself. -/
def union (t : Interner) (ids : List TypeId) : TypeId × Interner :=
  match t.unionMembers ids with
  | [] => (TypeId.never, t)
  | [id] => (id, t)
  | members => t.intern (.union members)

/-! ## Ids and structures -/

theorem intern_of_find? {t : Interner} {s : Structure} {id : TypeId} (h : t.find? s = some id) :
    t.intern s = (id, t) := by
  simp [intern, h]

theorem lookup_of_find? {t : Interner} {s : Structure} {id : TypeId} (h : t.find? s = some id) :
    t.lookup id = some s := by
  unfold find? at h
  rcases Option.or_eq_some_iff.1 h with hf | ⟨-, hf⟩
  · cases s <;> simp only [fixed?] at hf <;> try exact absurd hf (by simp)
    rename_i name
    unfold intrinsic? at hf
    have hlt : id < intrinsicNames.length := (List.idxOf?_eq_some_iff.1 hf).1
    have hget : intrinsicNames[id]? = some name := by
      obtain ⟨h1, h2, -⟩ := List.idxOf?_eq_some_iff.1 hf
      rw [List.getElem?_eq_getElem h1, h2]
    have : id < TypeId.firstUser := Nat.lt_trans hlt (by decide)
    simp [lookup, this, hget]
  · obtain ⟨i, hi, rfl⟩ := Option.map_eq_some_iff.1 hf
    obtain ⟨h1, h2, -⟩ := Array.findIdx?_eq_some_iff_getElem.1 hi
    have : ¬ (TypeId.firstUser + i < TypeId.firstUser) := Nat.not_lt.2 (Nat.le_add_right _ _)
    simp only [lookup, get?, this, if_false]
    rw [Nat.add_sub_cancel_left, Array.getElem?_eq_getElem h1]
    simpa using h2

theorem lookup_intern (t : Interner) (s : Structure) :
    (t.intern s).2.lookup (t.intern s).1 = some s := by
  cases h : t.find? s with
  | some id => rw [intern_of_find? h]; exact lookup_of_find? h
  | none =>
    have : ¬ (TypeId.firstUser + t.types.size < TypeId.firstUser) :=
      Nat.not_lt.2 (Nat.le_add_right _ _)
    simp [intern, h, lookup, get?, this]

theorem lookup_of_lookup_intern {t : Interner} {id : TypeId} {s : Structure} (s' : Structure)
    (h : t.lookup id = some s) : (t.intern s').2.lookup id = some s := by
  cases h' : t.find? s' with
  | some id' => rw [intern_of_find? h']; exact h
  | none =>
    simp only [intern, h', lookup, get?] at h ⊢
    split
    · rename_i hlt; simpa [hlt] using h
    · rename_i hge
      simp only [hge, if_false] at h ⊢
      rw [Array.getElem?_push]
      split
      · rename_i e; rw [e] at h; simp at h
      · exact h

end Interner

end TypeReify.Types
