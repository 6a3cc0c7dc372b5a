import TypeReify.Syntax.Arena
import TypeReify.Types.Basic

/-!
# Declarations and signatures

Where a function, a type or a member was declared, and which declaration a call resolves to.

Model of `DeclarationKind`, `DeclarationInfo` and `ResolvedSignature`.
-/

namespace TypeReify.Types

inductive DeclarationKind
  | function
  | interface
  | typeAlias
  | propertySignature
  | methodSignature
  | variableDeclaration
  | parameter
  /-- A signature written in a comment, without a node of its own. -/
  | comment
  deriving DecidableEq, Repr

structure Declaration where
  kind : DeclarationKind
  /-- The name as it is written, if there is one. -/
  name : Option String
  /-- The file as its own tree names it. -/
  fileName : String
  node : Syntax.NodeId
  deriving DecidableEq, Repr

/-- What a call resolves to; a made-up signature has no declaration. -/
structure Signature where
  declaration : Option DeclId
  deriving DecidableEq, Repr

end TypeReify.Types
