/-!
# Types

Types are kept in a table and named by their position (`TypeId`), so a structure mentions others by
id. Types with a declaration carry the id of that declaration: two declarations of one name never
fall together.

Model of `TypeId`, `LiteralValue`, `PropertySymbol`, `ObjectShape`, `ParamInfo`, `FunctionShape` and
`TypeData`.
-/

namespace TypeReify.Types

/-- The position of a type in the table, or the number of a keyword type. -/
abbrev TypeId := Nat

/-- The position of a declaration in the table of declarations. -/
abbrev DeclId := Nat

/-- The type of one value. -/
inductive Literal
  | string (text : String)
  /-- A number as it was spelled. -/
  | number (text : String)
  | boolean (value : Bool)
  deriving DecidableEq, Repr

/-- A member of an object-like type. -/
structure Property where
  name : String
  type : TypeId
  optional : Bool
  readonly : Bool
  method : Bool
  /-- Where it is declared; computed members are declared nowhere. -/
  declarations : List DeclId
  deriving DecidableEq, Repr

/-- The members of an object-like type in the order of declaration. -/
abbrev Shape := List Property

structure Parameter where
  name : String
  type : TypeId
  optional : Bool
  deriving DecidableEq, Repr

structure FunctionShape where
  parameters : List Parameter
  result : TypeId
  deriving DecidableEq, Repr

/-- What a type id stands for. -/
inductive Structure
  /-- A keyword type. -/
  | intrinsic (name : String)
  | literal (value : Literal)
  | array (element : TypeId)
  | union (members : List TypeId)
  | object (shape : Shape)
  | function (shape : FunctionShape)
  /-- An interface applied to arguments; its members are kept beside the table. -/
  | interface (name : String) (declaration : DeclId) (arguments : List TypeId)
  /-- An alias applied to arguments; what it stands for is kept beside the table. -/
  | synonym (name : String) (declaration : DeclId) (arguments : List TypeId)
  /-- A type parameter that nothing is bound to. -/
  | parameter (name : String)
  deriving DecidableEq, Repr

end TypeReify.Types
