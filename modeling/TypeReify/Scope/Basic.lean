import TypeReify.Syntax.Arena
import Std.Data.TreeMap

/-!
# Scopes

What names mean in one block, parameter list or file. Values and types are kept apart, so a name
may stand for a function and an interface at once. The first declaration of a name wins; only
functions add overloads to functions, and interfaces merge with interfaces.

Model of `ValueSymbol`, `TypeSymbol` and `Scope` with `add_value` and `add_type`, and of
`FileScope`.

Results:
* `getElem?_addType`: adding a name merges it with what the name meant and leaves the other names
  alone.
-/

namespace TypeReify.Scope

open Syntax (NodeId)

/-- What a name means where a value is wanted. -/
inductive Value
  /-- The function declarations of the name: the first, then its overloads. -/
  | function (first : NodeId) (overloads : List NodeId)
  | variableDeclaration (node : NodeId)
  | parameter (node : NodeId)
  /-- The export `name` of a module, if the module is part of the program. -/
  | imported (module : Option String) (name : String)
  /-- All exports of a module. -/
  | namespaceImport (module : Option String)
  deriving DecidableEq, Repr

/-- What a name means where a type is wanted. -/
inductive TypeName
  /-- The interface declarations of the name, merged in order. -/
  | interface (first : NodeId) (merged : List NodeId)
  | typeAlias (node : NodeId)
  | imported (module : Option String) (name : String)
  deriving DecidableEq, Repr

abbrev Types := Std.TreeMap String TypeName

/-- The names of one scope. -/
structure Names where
  values : Std.TreeMap String Value
  types : Types

namespace Names

def empty : Names := ⟨∅, ∅⟩

/-- How a further declaration of a name changes what it means. -/
def mergeValue : Option Value → Value → Value
  | none, new => new
  | some (.function first more), .function node others => .function first (more ++ node :: others)
  | some old, _ => old

def mergeType : Option TypeName → TypeName → TypeName
  | none, new => new
  | some (.interface first more), .interface node others =>
    .interface first (more ++ node :: others)
  | some old, _ => old

/-- `add_value`: a function adds itself to functions of its name, and else what was there first
stays. -/
def addValue (s : Names) (name : String) (v : Value) : Names :=
  { s with values := s.values.insert name (mergeValue s.values[name]? v) }

/-- `add_type`: interfaces merge, and else what was there first stays. -/
def addType (s : Names) (name : String) (t : TypeName) : Names :=
  { s with types := s.types.insert name (mergeType s.types[name]? t) }

/-- Imports mean a value and a type, whichever the use asks for. -/
def addImport (s : Names) (module : Option String) (name exported : String) : Names :=
  (s.addValue name (.imported module exported)).addType name (.imported module exported)

theorem getElem?_addType (s : Names) (name other : String) (t : TypeName) :
    (s.addType name t).types[other]? =
      if name = other then some (mergeType s.types[name]? t) else s.types[other]? := by
  simp [addType, Std.TreeMap.getElem?_insert]

end Names

end TypeReify.Scope
