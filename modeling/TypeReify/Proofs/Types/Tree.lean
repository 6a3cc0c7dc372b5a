import TypeReify.Proofs.Types.Interner
import TypeReify.Types.Render

/-!
# The tree behind a type

A table shares equal types, and names them by ids that mean nothing outside it. `Interner.tree`
follows the ids and gives what a type says without its table: keywords and literals, the parts of
arrays, unions, objects and functions, and the names of interfaces, aliases and type parameters with
the trees of their arguments. Declarations are left out, and `true` and `false` are keywords whether
they were interned as such or as literals.

A table that is `Built` was filled by interning structures over known types, and by forming unions.

`print_type` follows the ids in the same way and writes down what it meets.

Results:
* `Built.closed`, `Built.flat`: in such a table types come after their parts, and no member of a
  union is a union.
* `tree_of_lookup`: the tree of a type is made of the trees of its parts.
-/

namespace TypeReify.Types

/-! ## Trees -/

/-- A parameter of a function, whatever types are. -/
structure Tree.Parameter (α : Type) where
  name : String
  optional : Bool
  type : α

/-- A member of an object, whatever types are. -/
structure Tree.Property (α : Type) where
  name : String
  optional : Bool
  readonly : Bool
  method : Bool
  type : α

/-- What a type says. -/
inductive Tree
  | keyword (name : String)
  | text (value : String)
  | numeral (digits : String)
  | array (element : Tree)
  | union (members : List Tree)
  | object (properties : List (Tree.Property Tree))
  | function (parameters : List (Tree.Parameter Tree)) (result : Tree)
  /-- An interface, an alias or a type parameter; the latter has no arguments. -/
  | named (name : String) (arguments : List Tree)

/-- The trees of parameters, their types given. -/
def parameterTrees (inner : TypeId → Tree) (ps : List Parameter) : List (Tree.Parameter Tree) :=
  ps.map fun p => ⟨p.name, p.optional, inner p.type⟩

def propertyTrees (inner : TypeId → Tree) (ps : List Property) : List (Tree.Property Tree) :=
  ps.map fun p => ⟨p.name, p.optional, p.readonly, p.method, inner p.type⟩

/-- One level of a tree, its parts given by `inner`. -/
def Structure.tree (inner : TypeId → Tree) : Structure → Tree
  | .intrinsic name => .keyword name
  | .literal (.string text) => .text text
  | .literal (.number text) => .numeral text
  | .literal (.boolean value) => .keyword (if value then "true" else "false")
  | .array element => .array (inner element)
  | .union members => .union (members.map inner)
  | .object shape => .object (propertyTrees inner shape)
  | .function f => .function (parameterTrees inner f.parameters) (inner f.result)
  | .interface name _ arguments | .synonym name _ arguments => .named name (arguments.map inner)
  | .parameter name => .named name []

/-- The tree of a type. Parts are older than the type, so going from type to part comes to an end.
-/
def Interner.tree (t : Interner) (id : TypeId) : Tree :=
  match t.lookup id with
  | none => .keyword "any"
  | some s => s.tree fun x => if x < id then t.tree x else .keyword "any"
termination_by id

theorem Structure.tree_congr {f g : TypeId → Tree} {s : Structure}
    (h : ∀ x ∈ s.mentions, f x = g x) :
    s.tree f = s.tree g := by
  cases s with
  | intrinsic _ | parameter _ => rfl
  | literal value => cases value <;> rfl
  | array element => exact congrArg Tree.array (h element List.mem_cons_self)
  | union members => exact congrArg Tree.union (List.map_congr_left h)
  | interface _ _ arguments | synonym _ _ arguments =>
    exact congrArg (Tree.named _) (List.map_congr_left h)
  | object shape =>
    refine congrArg Tree.object (List.map_congr_left fun p hp => ?_)
    rw [h p.type (List.mem_map_of_mem hp)]
  | function shape =>
    have hresult : f shape.result = g shape.result :=
      h _ (List.mem_append_right _ List.mem_cons_self)
    have hparameters : parameterTrees f shape.parameters = parameterTrees g shape.parameters :=
      List.map_congr_left fun p hp => by
        rw [h p.type (List.mem_append_left _ (List.mem_map_of_mem hp))]
    rw [Structure.tree, Structure.tree, hresult, hparameters]

namespace Interner

variable {t : Interner} {id : TypeId} {s : Structure}

/-- In a closed table a type comes after its parts. -/
theorem Closed.lt (ht : t.Closed) (h : t.lookup id = some s) {x : TypeId} (hx : x ∈ s.mentions) :
    x < id := by
  cases s with
  | intrinsic _ => exact absurd hx List.not_mem_nil
  | _ => exact (ht id _ (get?_of_lookup h nofun) x hx).1

/-- **The tree of a type is made of the trees of its parts.** -/
theorem tree_of_lookup (ht : t.Closed) (h : t.lookup id = some s) : t.tree id = s.tree t.tree := by
  rw [tree, h]
  exact Structure.tree_congr fun x hx => if_pos (ht.lt h hx)

/-! ## Tables that are built -/

instance (t : Interner) : DecidablePred t.Known := fun _ =>
  decidable_of_iff _ Option.isSome_iff_exists

/-- The table was filled step by step. Structures over known types are interned, keywords among the
fourteen; unions are formed of known types. -/
inductive Built : Interner → Prop
  | empty : Built .empty
  | intern {t : Interner} {s : Structure} (ht : Built t) (hunion : ∀ members, s ≠ .union members)
      (hkeyword : ∀ name, s = .intrinsic name → name ∈ intrinsicNames)
      (hknown : ∀ x ∈ s.mentions, t.Known x) : Built (t.intern s).2
  | union {t : Interner} {ids : List TypeId} (ht : Built t) (hknown : ∀ id ∈ ids, t.Known id) :
      Built (t.union ids).2

/-- A union has two members at least, and none of them is a union. -/
def Flat (t : Interner) : Prop :=
  ∀ id members, t.get? id = some (.union members) →
    2 ≤ members.length ∧ ∀ m ∈ members, t.isUnion m = false

/-- Only the fourteen keywords are keywords. -/
def Keyworded (t : Interner) : Prop :=
  ∀ id name, t.lookup id = some (.intrinsic name) → name ∈ intrinsicNames

variable {t' : Interner} {ids : List TypeId}

theorem Grows.isUnion (hg : t.Grows t') (h : t.Known id) : t'.isUnion id = t.isUnion id := by
  rw [Interner.isUnion, Interner.isUnion, hg.get? h]

theorem Flat.intern (ht : t.Flat) (hclosed : t.Closed)
    (hs : ∀ members, s = .union members →
      2 ≤ members.length ∧ ∀ m ∈ members, t.Known m ∧ t.isUnion m = false) :
    (t.intern s).2.Flat := by
  intro id members h
  have hg := grows_intern t s
  rcases get?_intern_cases h with hold | ⟨hnew, -⟩
  · obtain ⟨hlength, hmembers⟩ := ht id members hold
    exact ⟨hlength, fun m hm => (hg.isUnion (hclosed id _ hold m hm).2).trans (hmembers m hm)⟩
  · obtain ⟨hlength, hmembers⟩ := hs members hnew.symm
    exact ⟨hlength, fun m hm => (hg.isUnion (hmembers m hm).1).trans (hmembers m hm).2⟩

/-- Unions among the members of a new union have been opened. -/
theorem isUnion_of_mem_unionMembers (ht : t.Flat) {x : TypeId} (hx : x ∈ t.unionMembers ids) :
    t.isUnion x = false := by
  rcases mem_firsts hx with hx | hx
  · exact absurd hx List.not_mem_nil
  · obtain ⟨id, -, hx⟩ := List.mem_flatMap.1 hx
    unfold flatten at hx
    split at hx
    · rename_i members hget
      exact (ht id members hget).2 x hx
    · rename_i hother
      obtain rfl := List.mem_singleton.1 hx
      unfold isUnion
      split
      · rename_i members hget
        exact absurd hget (hother members)
      · rfl

/-- A union is interned only if it has two members. -/
theorem union_cases_two (t : Interner) (ids : List TypeId) :
    (∃ id, t.union ids = (id, t)) ∨
      2 ≤ (t.unionMembers ids).length ∧ t.union ids = t.intern (.union (t.unionMembers ids)) := by
  unfold union
  split
  · exact .inl ⟨_, rfl⟩
  · exact .inl ⟨_, rfl⟩
  · rename_i members hnil hone
    refine .inr ⟨?_, rfl⟩
    match hlist : t.unionMembers ids with
    | [] => exact absurd hlist hnil
    | [id] => exact absurd hlist (hone id)
    | _ :: _ :: _ => exact Nat.le_add_left 2 _

theorem Built.closed (h : Built t) : t.Closed := by
  induction h with
  | empty => exact fun id s h => absurd h (by simp [get?, Interner.empty])
  | intern _ _ _ hknown ih => exact closed_intern ih hknown
  | union _ hknown ih => exact closed_union ih hknown

theorem Built.flat (h : Built t) : t.Flat := by
  induction h with
  | empty => exact fun id s h => absurd h (by simp [get?, Interner.empty])
  | intern ht hunion _ _ ih =>
    exact ih.intern ht.closed fun members hs => absurd hs (hunion members)
  | @union t ids ht hknown ih =>
    rcases t.union_cases_two ids with ⟨id, hrun⟩ | ⟨hlength, hrun⟩
    · rw [hrun]
      exact ih
    · rw [hrun]
      refine ih.intern ht.closed fun members hs => ?_
      obtain rfl := Structure.union.inj hs
      exact ⟨hlength, fun m hm =>
        ⟨known_unionMembers ht.closed hknown m hm, isUnion_of_mem_unionMembers ih hm⟩⟩

theorem Built.keyworded (h : Built t) : t.Keyworded := by
  induction h with
  | empty =>
    intro id name hid
    obtain ⟨name', hname, hget⟩ := lookup_empty hid
    obtain rfl := Structure.intrinsic.inj hname
    exact List.mem_of_getElem? hget
  | intern _ _ hkeyword _ ih =>
    intro id name hid
    rcases lookup_intern_cases hid with hold | ⟨hnew, -⟩
    · exact ih id name hold
    · exact hkeyword name hnew.symm
  | @union t ids _ _ ih =>
    rcases t.union_cases_two ids with ⟨id, hrun⟩ | ⟨-, hrun⟩
    · rw [hrun]
      exact ih
    · rw [hrun]
      intro id name hid
      rcases lookup_intern_cases hid with hold | ⟨hnew, -⟩
      · exact ih id name hold
      · cases hnew

end Interner

end TypeReify.Types
