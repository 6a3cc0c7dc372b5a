import TypeReify.Syntax.SourceFile

/-!
# Drafting a file statement by statement

A `Draft` is an arena together with the top-level statements written so far. The helpers write
whole phrases: those that make a statement append it to the file, the others only answer the node
that they built.

Nodes are appended innermost first and left to right, each helper's comment showing the phrase.

Model of `AstBuilder`, by which trees are written in tests and examples.
-/

namespace TypeReify.Syntax

structure Draft where
  arena : Arena
  statements : List Ref

/-- An action that writes to a draft. -/
abbrev Drafting := StateM Draft

namespace Draft

def empty : Draft := ⟨.empty, []⟩

def finish (d : Draft) (fileName : String) : SourceFile :=
  .ofStatements fileName d.arena d.statements

/-- Runs a building action on the arena of the draft. -/
def build {α : Type} (act : Build α) : Drafting α := fun d =>
  let (x, arena) := act d.arena
  (x, { d with arena })

/-- Appends a statement that is already built. -/
def append (statement : Ref) : Drafting Unit :=
  modify fun d => { d with statements := d.statements ++ [statement] }

/-- Builds a statement and appends it. -/
def statement (act : Build NodeId) : Drafting NodeId := do
  let s ← build act
  append s
  return s

/-- A list where there is something to list. -/
def nonempty? (xs : List Ref) : Option (List Ref) := if xs.isEmpty then none else some xs

/-! ## Expressions and types -/

/-- Writes `callee<T, …>()`. -/
def callOf (callee : Ref) (typeArguments : List Ref) : Build NodeId :=
  Build.call callee (nonempty? typeArguments) []

/-- Writes `name<T, …>()`. -/
def callNamed (name : String) (typeArguments : List Ref) : Build NodeId := do
  callOf (← Build.identifier name) typeArguments

/-- Writes `object.member<T, …>()`. -/
def callMember (object member : String) (typeArguments : List Ref) : Build NodeId := do
  let object ← Build.identifier object
  let member ← Build.identifier member
  callOf (← Build.propertyAccess object member) typeArguments

/-- Writes `Name<T, …>`. -/
def typeNamed (name : String) (arguments : List Ref) : Build NodeId := do
  Build.typeReference (← Build.identifier name) (nonempty? arguments)

/-- Writes the type `"text"`. -/
def stringType (text : String) : Build NodeId := do
  Build.literalType (← Build.stringLiteral text)

def typeParameter (name : String) : Build NodeId := do
  Build.typeParameter (← Build.identifier name) none none

/-- Writes `name: T`. -/
def property (name : String) (ascription : Ref) : Build NodeId := do
  Build.propertySignature (← Build.identifier name) ascription

/-- Writes `name?: T`. -/
def optionalProperty (name : String) (ascription : Ref) : Build NodeId := do
  let p ← property name ascription
  Build.addFlags p .optional
  return p

/-- Writes `"name": T`. -/
def quotedProperty (name : String) (ascription : Ref) : Build NodeId := do
  Build.propertySignature (← Build.stringLiteral name) ascription

/-! ## Statements -/

/-- Writes `interface Name { … }`. -/
def interfaceNamed (name : String) (members : List Ref) : Drafting NodeId :=
  statement do Build.interfaceDeclaration (← Build.identifier name) none none members

/-- Writes `type Name = T;`. -/
def aliasNamed (name : String) (body : Ref) : Drafting NodeId :=
  statement do Build.typeAliasDeclaration (← Build.identifier name) none body

/-- Writes `export declare function name<T, …>(): R;`. -/
def declareFunction (name : String) (typeParameters : List String) (result : Ref) :
    Drafting NodeId :=
  statement do
    let name ← Build.identifier name
    let parameters ← typeParameters.mapM typeParameter
    let f ← Build.functionDeclaration name (nonempty? (parameters.map some)) [] result none
    Build.addFlags f (.union .exported .ambient)
    return f

/-- Writes `import <bindings> from "specifier";`. -/
def importBindings (bindings : Ref) (specifier : String) : Build NodeId := do
  let clause ← Build.importClause none bindings
  Build.importDeclaration clause (← Build.stringLiteral specifier)

/-- Writes `import { a, … } from "specifier";`. -/
def importNames (names : List String) (specifier : String) : Drafting NodeId :=
  statement do
    let items ← names.mapM fun name => do
      Build.importSpecifier none (← Build.identifier name)
    importBindings (← Build.namedImports (items.map some)) specifier

/-- Writes `import { source as name } from "specifier";`. -/
def importRenamed (source name specifier : String) : Drafting NodeId :=
  statement do
    let source ← Build.identifier source
    let name ← Build.identifier name
    let item ← Build.importSpecifier source name
    importBindings (← Build.namedImports [some item]) specifier

/-- Writes `import * as name from "specifier";`. -/
def importNamespace (name specifier : String) : Drafting NodeId :=
  statement do
    let name ← Build.identifier name
    importBindings (← Build.namespaceImport name) specifier

/-- Writes `import "specifier";`. -/
def importForEffect (specifier : String) : Drafting NodeId :=
  statement do Build.importDeclaration none (← Build.stringLiteral specifier)

/-- Writes `const name = value;`. -/
def constant (name : String) (value : Ref) : Drafting NodeId :=
  statement do
    let name ← Build.identifier name
    let declaration ← Build.variableDeclaration name none value
    let s ← Build.variableStatement [some declaration]
    Build.addFlags s .constant
    return s

/-- Writes `e;`. -/
def expression (e : Ref) : Drafting NodeId := statement (Build.expressionStatement e)

end Draft

end TypeReify.Syntax
