import TypeReify.Scope.Basic
import TypeReify.Types.Basic

/-!
# Type names in their lexical surroundings

A type name is looked up through the frames around its use, innermost first, and then among the
types of the file. A frame belongs to a function (its type parameters) or to a block (the types
declared there). What is found remembers the frames it was declared in, so that its own members
are resolved there and not where it is used.

Model of `TypeEnv` (`Surroundings`), of the chain of `TypeScope`s (`Frames`) and of `lookup_type`,
whose answer `ScopedType` is `Meaning`. The source names a scope by a `ScopeId` and goes up from
parent to parent; here a place has the list of the frames around it. The walk opens a frame also
where the source finds nothing to put in one and keeps the parent.

Results:
* `get?_bind`: binding a name changes what that name is bound to, and no other.
-/

namespace TypeReify.Check

open TypeReify.Types (TypeId)

/-- The types one function or block declares. -/
structure Frame where
  types : Scope.Types
  parameters : List String

/-- The frames around a place, innermost first. -/
abbrev Frames := List Frame

/-- What a type name denotes. -/
inductive Meaning
  /-- A declaration, and the frames from its own outwards. -/
  | declared (symbol : Scope.TypeName) (frames : Frames)
  /-- A type parameter of an enclosing function. -/
  | parameter

/-- What a type name denotes at a place (`lookup_type`): what the innermost frame that has it says,
and a declaration before a type parameter where one frame has both. What no frame has is a type of
the file. -/
def Frames.lookup (fileTypes : Scope.Types) (name : String) : Frames → Option Meaning
  | [] => fileTypes[name]?.map (.declared · [])
  | frame :: outer =>
    match frame.types[name]? with
    | some symbol => some (.declared symbol (frame :: outer))
    | none =>
      if frame.parameters.contains name then some .parameter else lookup fileTypes name outer

/-- Where a type node is resolved: the type parameters that are bound, and the frames around it. -/
structure Surroundings where
  bindings : List (String × TypeId)
  frames : Frames

namespace Surroundings

/-- Surroundings where no type parameter is bound (`in_scope`). -/
def ofFrames (frames : Frames) : Surroundings := ⟨[], frames⟩

/-- Binds a name; a later binding of the same name hides it. -/
def bind (s : Surroundings) (name : String) (type : TypeId) : Surroundings :=
  { s with bindings := (name, type) :: s.bindings }

/-- What a name is bound to. -/
def get? (s : Surroundings) (name : String) : Option TypeId := s.bindings.lookup name

theorem get?_bind (s : Surroundings) (name other : String) (type : TypeId) :
    (s.bind name type).get? other = if other = name then some type else s.get? other := by
  by_cases h : other = name
  · simp [bind, get?, h]
  · have : (other == name) = false := by simp [h]
    simp [bind, get?, h, List.lookup_cons, this]

end Surroundings

end TypeReify.Check
