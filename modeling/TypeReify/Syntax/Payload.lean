import TypeReify.Syntax.Kind

/-!
# Payloads

What a node holds besides its header: texts, an operator, and the nodes below it. `Payload α` is
one payload whose children are of type `α`, so the same shape serves an arena (children are
references) and a tree (children are trees). The kind of a node fixes the pool its payload is kept
in (`Kind.pool?`), and a payload knows its pool (`Payload.pool`).

* `Payload.children` lists the children in source order, absent lists counting as empty.
* `Payload.traverse` visits them in that order, single slots by one function and lists by another.

Model of the `…Data` records that a `Node` points to, one pool for each. `children` is the order of
`get_children`, and `traverse` the order of `visit_each_child`.

Results:
* `Pool.ofFin_index`, `Pool.index_inj`: pools are numbered without gaps or clashes.
* `Payload.pool_map`: changing the children leaves the pool alone.
* `Payload.children_map`: the children of a mapped payload are the mapped children.
-/

namespace TypeReify.Syntax

/-- Where payloads of one shape are kept. -/
inductive Pool
  | identifiers
  | literals
  | calls
  | accesses
  | elements
  | assignments
  | parenthesized
  | binaries
  | functions
  | parameters
  | typeParameters
  | blocks
  | expressionStatements
  | ifStatements
  | variableStatements
  | variableDeclarations
  | imports
  | importClauses
  | importBindings
  | importSpecifiers
  | typeReferences
  | unions
  | arrayTypes
  | literalTypes
  | typeLiterals
  | signatures
  | indexSignatures
  | mappedTypes
  | functionTypes
  | interfaces
  | typeAliases
  | sourceFiles
  deriving DecidableEq, Repr

namespace Pool

/-- The pools in storage order. -/
def all : List Pool :=
  [.identifiers, .literals, .calls, .accesses, .elements, .assignments, .parenthesized, .binaries,
    .functions, .parameters, .typeParameters, .blocks, .expressionStatements, .ifStatements,
    .variableStatements, .variableDeclarations, .imports, .importClauses, .importBindings,
    .importSpecifiers, .typeReferences, .unions, .arrayTypes, .literalTypes, .typeLiterals,
    .signatures, .indexSignatures, .mappedTypes, .functionTypes, .interfaces, .typeAliases,
    .sourceFiles]

def count : Nat := 32

def index (p : Pool) : Fin count := ⟨p.ctorIdx, by cases p <;> decide⟩

def ofFin (i : Fin count) : Pool := all.get (i.cast rfl)

theorem ofFin_index (p : Pool) : ofFin p.index = p := by cases p <;> rfl

theorem index_inj {p q : Pool} : p.index = q.index ↔ p = q :=
  ⟨fun h => by rw [← ofFin_index p, h, ofFin_index], fun h => h ▸ rfl⟩

end Pool

/-- The pool of a kind; the other kinds carry no payload. -/
def Kind.pool? : Kind → Option Pool
  | .token .identifier => some .identifiers
  | .token .stringLiteral | .token .numericLiteral => some .literals
  | .token _ | .unassigned _ => none
  | .form f =>
    some <| match f with
    | .call => .calls
    | .propertyAccess => .accesses
    | .arrayLiteral | .objectLiteral => .elements
    | .propertyAssignment | .shorthandAssignment => .assignments
    | .parenthesized => .parenthesized
    | .binary => .binaries
    | .functionDeclaration | .arrowFunction => .functions
    | .parameter => .parameters
    | .typeParameter => .typeParameters
    | .block => .blocks
    | .expressionStatement | .returnStatement => .expressionStatements
    | .ifStatement => .ifStatements
    | .variableStatement => .variableStatements
    | .variableDeclaration => .variableDeclarations
    | .importDeclaration => .imports
    | .importClause => .importClauses
    | .namedImports | .namespaceImport => .importBindings
    | .importSpecifier => .importSpecifiers
    | .typeReference => .typeReferences
    | .unionType => .unions
    | .arrayType => .arrayTypes
    | .literalType => .literalTypes
    | .typeLiteral => .typeLiterals
    | .propertySignature | .methodSignature => .signatures
    | .indexSignature => .indexSignatures
    | .mappedType => .mappedTypes
    | .functionType => .functionTypes
    | .interfaceDeclaration => .interfaces
    | .typeAliasDeclaration => .typeAliases
    | .sourceFile => .sourceFiles

/-- The contents of a node, by pool. -/
inductive Payload (α : Type)
  | identifier (text : String)
  /-- String and numeric literals, without quotes. -/
  | literal (text : String)
  | call (callee : α) (typeArguments : Option (List α)) (arguments : List α)
  | access (object name : α)
  /-- Elements of an array literal, properties of an object literal. -/
  | elements (items : List α)
  /-- `name: value`, or a shorthand `name` without value. -/
  | assignment (name value : α)
  | parenthesized (expression : α)
  | binary (left : α) (operator : Token) (right : α)
  /-- Function declarations and arrow functions. -/
  | function (name : α) (typeParameters : Option (List α)) (parameters : List α) (result body : α)
  | parameter (name ascription value : α)
  | typeParameter (name bound fallback : α)
  | block (statements : List α)
  /-- Expression statements and `return`. -/
  | expressionStatement (expression : α)
  | ifStatement (condition thenBranch elseBranch : α)
  | variableStatement (declarations : List α)
  | variableDeclaration (name ascription value : α)
  | importDeclaration (clause specifier : α)
  | importClause (name bindings : α)
  /-- `{ a, b as c }` by its elements, `* as ns` by its name. -/
  | importBindings (name : α) (elements : List α)
  /-- `source as name`, without source where nothing is renamed. -/
  | importSpecifier (source name : α)
  | typeReference (name : α) (arguments : Option (List α))
  | union (members : List α)
  | arrayType (element : α)
  | literalType (literal : α)
  | typeLiteral (members : List α)
  /-- Properties, and methods by their parameter list. -/
  | signature (name : α) (typeParameters parameters : Option (List α)) (ascription : α)
  | indexSignature (parameters : List α) (ascription : α)
  /-- The bound of the parameter gives the keys, the template the values. -/
  | mappedType (parameter template : α)
  | functionType (typeParameters : Option (List α)) (parameters : List α) (result : α)
  | interface (name : α) (typeParameters heritage : Option (List α)) (members : List α)
  | typeAlias (name : α) (typeParameters : Option (List α)) (body : α)
  | sourceFile (fileName : String) (statements : List α)
  deriving DecidableEq, Repr

namespace Payload

variable {α β : Type}

def pool : Payload α → Pool
  | .identifier _ => .identifiers
  | .literal _ => .literals
  | .call .. => .calls
  | .access .. => .accesses
  | .elements _ => .elements
  | .assignment .. => .assignments
  | .parenthesized _ => .parenthesized
  | .binary .. => .binaries
  | .function .. => .functions
  | .parameter .. => .parameters
  | .typeParameter .. => .typeParameters
  | .block _ => .blocks
  | .expressionStatement _ => .expressionStatements
  | .ifStatement .. => .ifStatements
  | .variableStatement _ => .variableStatements
  | .variableDeclaration .. => .variableDeclarations
  | .importDeclaration .. => .imports
  | .importClause .. => .importClauses
  | .importBindings .. => .importBindings
  | .importSpecifier .. => .importSpecifiers
  | .typeReference .. => .typeReferences
  | .union _ => .unions
  | .arrayType _ => .arrayTypes
  | .literalType _ => .literalTypes
  | .typeLiteral _ => .typeLiterals
  | .signature .. => .signatures
  | .indexSignature .. => .indexSignatures
  | .mappedType .. => .mappedTypes
  | .functionType .. => .functionTypes
  | .interface .. => .interfaces
  | .typeAlias .. => .typeAliases
  | .sourceFile .. => .sourceFiles

/-- The children in source order. -/
def children : Payload α → List α
  | .identifier _ | .literal _ => []
  | .call callee types args => callee :: types.getD [] ++ args
  | .access object name => [object, name]
  | .elements items => items
  | .assignment name value => [name, value]
  | .parenthesized e => [e]
  | .binary left _ right => [left, right]
  | .function name types params result body => name :: types.getD [] ++ params ++ [result, body]
  | .parameter name ascription value => [name, ascription, value]
  | .typeParameter name bound fallback => [name, bound, fallback]
  | .block statements => statements
  | .expressionStatement e => [e]
  | .ifStatement condition yes no => [condition, yes, no]
  | .variableStatement declarations => declarations
  | .variableDeclaration name ascription value => [name, ascription, value]
  | .importDeclaration clause specifier => [clause, specifier]
  | .importClause name bindings => [name, bindings]
  | .importBindings name items => name :: items
  | .importSpecifier source name => [source, name]
  | .typeReference name args => name :: args.getD []
  | .union members => members
  | .arrayType element => [element]
  | .literalType value => [value]
  | .typeLiteral members => members
  | .signature name types params ascription =>
    name :: types.getD [] ++ params.getD [] ++ [ascription]
  | .indexSignature params ascription => params ++ [ascription]
  | .mappedType key template => [key, template]
  | .functionType types params result => types.getD [] ++ params ++ [result]
  | .interface name types heritage members =>
    name :: types.getD [] ++ heritage.getD [] ++ members
  | .typeAlias name types body => name :: types.getD [] ++ [body]
  | .sourceFile _ statements => statements

section Traverse

variable {m : Type → Type} [Monad m]

/-- An absent list stays absent. -/
def traverseOptional (list : List α → m (List β)) : Option (List α) → m (Option (List β))
  | none => pure none
  | some xs => some <$> list xs

/-- Visits single slots with `slot` and lists with `list`, in source order. -/
def traverse (slot : α → m β) (list : List α → m (List β)) : Payload α → m (Payload β)
  | .identifier text => pure (.identifier text)
  | .literal text => pure (.literal text)
  | .call callee types args =>
    return .call (← slot callee) (← traverseOptional list types) (← list args)
  | .access object name => return .access (← slot object) (← slot name)
  | .elements items => return .elements (← list items)
  | .assignment name value => return .assignment (← slot name) (← slot value)
  | .parenthesized e => return .parenthesized (← slot e)
  | .binary left operator right => return .binary (← slot left) operator (← slot right)
  | .function name types params result body =>
    return .function (← slot name) (← traverseOptional list types) (← list params)
      (← slot result) (← slot body)
  | .parameter name ascription value =>
    return .parameter (← slot name) (← slot ascription) (← slot value)
  | .typeParameter name bound fallback =>
    return .typeParameter (← slot name) (← slot bound) (← slot fallback)
  | .block statements => return .block (← list statements)
  | .expressionStatement e => return .expressionStatement (← slot e)
  | .ifStatement condition yes no =>
    return .ifStatement (← slot condition) (← slot yes) (← slot no)
  | .variableStatement declarations => return .variableStatement (← list declarations)
  | .variableDeclaration name ascription value =>
    return .variableDeclaration (← slot name) (← slot ascription) (← slot value)
  | .importDeclaration clause specifier =>
    return .importDeclaration (← slot clause) (← slot specifier)
  | .importClause name bindings => return .importClause (← slot name) (← slot bindings)
  | .importBindings name items => return .importBindings (← slot name) (← list items)
  | .importSpecifier source name => return .importSpecifier (← slot source) (← slot name)
  | .typeReference name args =>
    return .typeReference (← slot name) (← traverseOptional list args)
  | .union members => return .union (← list members)
  | .arrayType element => return .arrayType (← slot element)
  | .literalType value => return .literalType (← slot value)
  | .typeLiteral members => return .typeLiteral (← list members)
  | .signature name types params ascription =>
    return .signature (← slot name) (← traverseOptional list types)
      (← traverseOptional list params) (← slot ascription)
  | .indexSignature params ascription =>
    return .indexSignature (← list params) (← slot ascription)
  | .mappedType key template => return .mappedType (← slot key) (← slot template)
  | .functionType types params result =>
    return .functionType (← traverseOptional list types) (← list params) (← slot result)
  | .interface name types heritage members =>
    return .interface (← slot name) (← traverseOptional list types)
      (← traverseOptional list heritage) (← list members)
  | .typeAlias name types body =>
    return .typeAlias (← slot name) (← traverseOptional list types) (← slot body)
  | .sourceFile fileName statements => return .sourceFile fileName (← list statements)

end Traverse

/-- The payload with every child replaced by its image. -/
def map (f : α → β) (p : Payload α) : Payload β :=
  p.traverse (m := Id) f (List.map f)

theorem pool_map (f : α → β) (p : Payload α) : (p.map f).pool = p.pool := by
  cases p <;> rfl

theorem children_map (f : α → β) (p : Payload α) : (p.map f).children = p.children.map f := by
  have opt : ∀ xs : Option (List α),
      (traverseOptional (m := Id) (List.map f) xs).getD [] = (xs.getD []).map f := by
    intro xs; cases xs <;> rfl
  cases p <;> simp [map, traverse, children, opt, pure, bind]

end Payload

end TypeReify.Syntax
