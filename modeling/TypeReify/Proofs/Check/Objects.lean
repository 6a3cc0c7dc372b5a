import TypeReify.Proofs.Check.Members

/-!
# Where object types come from

An object type is entered at three places only: a type literal comes to its own members, and a
mapped type and the built-in `Record` come to one property for each key. The properties of the
latter two are computed, so nothing in a file declares them (`ObjectOf`). Ids are shared, and an
object type may come from several places; it is enough to know one of them.

The three places are the arms of `resolve_type_inner` for type literals, `resolve_mapped` and
`builtin_reference`.

Results:
* `nodup_literalKeys`: a key type denotes a name at most once.
* `State.Formed.grow`: what has to be known of the types that an action enters.
-/

namespace TypeReify.Check

open Syntax Scope
open TypeReify.Types

section

variable (strict : Bool) (sources : Sources) (st : State) (id : TypeId)

/-- The type is what a mapped type of the program came to, or the built-in `Record` under its name.
-/
inductive Computed : Prop
  | mapped {m : Module} {node : NodeId} {h : Header} {parameter template : Ref} {s : Surroundings}
      {levels heritage : Nat} (module : m ∈ sources.modules)
      (content : m.file.arena.content? (some node) = some (h, .mappedType parameter template))
      (answer : Answered sources st (resolveType strict sources levels heritage m s (some node)) id)
  | record {m : Module} {node : NodeId} {h : Header} {name : Ref} {arguments : Option (List Ref)}
      {s : Surroundings} {levels heritage : Nat} {keys value : TypeId}
      (module : m ∈ sources.modules)
      (content : m.file.arena.content? (some node) = some (h, .typeReference name arguments))
      (name : m.file.arena.identifierText? name = some "Record")
      (answer : Answered sources st (resolveType strict sources levels heritage m s (some node)) id)
      (builtin : Answered sources st (builtinType "Record" [keys, value]) (some id))

/-- The object type came from a place of the program where this shape is formed. -/
inductive ObjectOf (shape : Shape) : Prop
  | literal {m : Module} {node : NodeId} {h : Header} {members : List Ref} (s : Surroundings)
      (module : m ∈ sources.modules)
      (content : m.file.arena.content? (some node) = some (h, .typeLiteral members))
      (own : OwnMembers strict sources m st (members.map (s, ·)) shape)
  | computed (origin : Computed strict sources st id) (names : (shape.map (·.name)).Nodup)
      (undeclared : ∀ p ∈ shape, p.declarations = [])

/-- Every object type came from a place of the program. -/
def State.Formed : Prop :=
  ∀ id shape, st.interner.get? id = some (.object shape) → ObjectOf strict sources st id shape

end

variable {strict : Bool} {sources : Sources} {st st' : State} {id : TypeId}

theorem Computed.mono (h : Computed strict sources st id) (hst : st.Grows st') :
    Computed strict sources st' id := by
  cases h with
  | mapped module content answer => exact .mapped module content (answer.mono hst)
  | record module content name answer builtin =>
    exact .record module content name (answer.mono hst) (builtin.mono hst)

theorem ObjectOf.mono {shape : Shape} (h : ObjectOf strict sources st id shape)
    (hst : st.Grows st') : ObjectOf strict sources st' id shape := by
  cases h with
  | literal s module content own => exact .literal s module content (own.mono hst)
  | computed origin names undeclared => exact .computed (origin.mono hst) names undeclared

theorem formed_empty (strict : Bool) (sources : Sources) : State.empty.Formed strict sources :=
  fun _ _ h => absurd h (by simp [State.empty, Interner.empty, Interner.get?])

/-- Of a state that has grown, only the types that are new have to come from somewhere. -/
theorem State.Formed.grow (h : st.Formed strict sources) (hst : st.Grows st')
    (hnew : ∀ id shape, st'.interner.get? id = some (.object shape) →
      st.interner.get? id = some (.object shape) ∨ ObjectOf strict sources st' id shape) :
    st'.Formed strict sources := fun id shape hid =>
  (hnew id shape hid).elim (fun hold => (h id shape hold).mono hst) fun hnew => hnew

theorem State.Formed.keep (h : st.Formed strict sources) (hst : st.Grows st')
    (hsame : st'.interner = st.interner) : st'.Formed strict sources :=
  h.grow hst fun _ _ hid => .inl (hsame ▸ hid)

/-! ## Keys -/

/-- A key type denotes a name at most once. -/
theorem nodup_literalKeys {t : Interner} {named : NamedTypes} (levels : Nat)
    {found : List (String × TypeId)} (id : TypeId) (hfound : (found.map (·.1)).Nodup) :
    ((literalKeys t named levels found id).map (·.1)).Nodup := by
  induction levels generalizing found id with
  | zero => exact hfound
  | succ levels ih =>
    unfold literalKeys
    split
    · exact nodup_map_concat_of_new hfound (_, id)
    · exact nodup_map_concat_of_new hfound (_, id)
    · exact List.foldlRecOn (motive := fun found : List (String × TypeId) =>
        (found.map (·.1)).Nodup)
        _ _ hfound fun found hfound x _ => ih x hfound
    · split
      · exact ih _ hfound
      · exact hfound
    · exact hfound

end TypeReify.Check
