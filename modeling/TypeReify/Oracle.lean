import TypeReify.Types.Declaration

/-!
# Oracles

What a rewrite asks about a program: the declaration a call resolves to, the type a node denotes,
the properties of a type and how a type is written. Nodes are named by their file and position; of
nodes made after checking an oracle knows nothing.

Model of `TypeOracle`: a record has a field for each method, so a rewrite can be asked about with
any answers. `commentsOnly` and `synthetic` are answers that no checked program gives.
-/

namespace TypeReify

open TypeReify.Types
open Syntax (NodeId Ref)

structure Oracle where
  /-- The signature of the call at a node of a file. -/
  signature? : String → NodeId → Option Signature
  /-- The type that a type node of a file denotes. -/
  typeAt? : String → NodeId → Option TypeId
  /-- The type that an empty slot of a file denotes. -/
  typeAtNone? : String → Option TypeId
  /-- Own properties in the order of declaration, then inherited ones. -/
  properties : TypeId → List Property
  /-- The type of a property as it reads at one of its declarations. -/
  propertyType : Property → DeclId → TypeId
  typeText : TypeId → String
  declaration? : DeclId → Option Declaration

namespace Oracle

/-- The oracle with its answers about declarations changed. -/
def mapDeclarations (o : Oracle) (f : Declaration → Declaration) : Oracle :=
  { o with declaration? := fun d => (o.declaration? d).map f }

/-- The oracle with functions seen as declared in comments only. -/
def commentsOnly (o : Oracle) : Oracle :=
  o.mapDeclarations fun d => if d.kind = .function then { d with kind := .comment } else d

/-- The oracle with every call resolved to a made-up signature. -/
def synthetic (o : Oracle) : Oracle :=
  { o with signature? := fun file node => (o.signature? file node).map fun _ => ⟨none⟩ }

end Oracle

end TypeReify
