import TypeReify.Check.Resolve
import TypeReify.Syntax.Walk

/-!
# Walking a file

The walk goes through a whole tree and records two facts: which declaration every call resolves to,
and which type every ascription of a variable or parameter and every type argument of a call
denotes. Functions and blocks open scopes, so a name at a call means what it would mean when the
program runs.

Model of `check` and `walk_node` with the pieces of its body: `resolve_call` and
`signature_for_value` (`callSignature`), `lookup_value`, `open_type_scope` (`Scopes.inside`),
`record_type_node` (`recordType`) and `walk_children`. The facts of a file are its `FileTables`.
-/

namespace TypeReify.Check

open Syntax Scope
open TypeReify.Types

/-- What is known about the nodes of one file. -/
structure Facts where
  signatures : Std.TreeMap NodeId Signature
  types : Std.TreeMap NodeId TypeId

def Facts.empty : Facts := ⟨∅, ∅⟩

/-- The scopes around a place: values by scope, innermost first, and the frames of types. -/
structure Scopes where
  values : List Names
  types : Frames

/-- At the top of a file only what the file itself declares can be seen. -/
def Scopes.file : Scopes := ⟨[], []⟩

/-! ## Calls -/

/-- The callee without the parentheses around it. -/
def calleeOf (a : Arena) : (levels : Nat) → Ref → Ref
  | 0, r => r
  | levels + 1, r =>
    match a.content? r with
    | some (_, .parenthesized inner) => calleeOf a levels inner
    | _ => r

/-- `lookup_value`: what a name means at a place. -/
def lookupValue (m : Module) (scopes : Scopes) (name : String) : Option Value :=
  (scopes.values.findSome? (·.values[name]?)).or m.names.locals.values[name]?

/-- The function behind a value, through the import that names it; other values have none. -/
def functionBehind? (sources : Sources) (hops : Nat) (m : Module) (value : Value) :
    Option (Module × NodeId) :=
  match sources.followValue hops m value with
  | some (m, .function first _) => some (m, first)
  | _ => none

/-- The function a callee names: by itself, or as a member of an imported module. -/
def calledFunction? (sources : Sources) (m : Module) (scopes : Scopes) (callee : Ref) :
    Option (Module × NodeId) :=
  let a := m.file.arena
  match a.content? (calleeOf a a.levels callee) with
  | some (_, .identifier name) => do
    functionBehind? sources importHops m (← lookupValue m scopes name)
  | some (_, .access object member) => do
    let object ← a.identifierText? object
    let member ← a.identifierText? member
    match lookupValue m scopes object with
    | some (.namespaceImport module) => do
      let (target, value) ← sources.exportedValue? module member
      functionBehind? sources (importHops - 1) target value
    | _ => none
  | _ => none

/-- The name that a function is declared under. -/
def Module.functionName? (m : Module) (node : NodeId) : Option String :=
  match m.file.arena.content? (some node) with
  | some (_, .function name _ _ _ _) => m.file.arena.identifierText? name
  | _ => none

/-- `resolve_call`: the signature of a call is the first declaration of the function it calls. -/
def callSignature (sources : Sources) (m : Module) (scopes : Scopes) (callee : Ref) :
    Checking (Option Signature) :=
  match calledFunction? sources m scopes callee with
  | some (target, first) => do
    let declaration ← target.declare .function (target.functionName? first) first
    return some ⟨some declaration⟩
  | none => return none

/-! ## The walk -/

def typeParameterNames (a : Arena) (parameters : Option (List Ref)) : List String :=
  (parameters.getD []).filterMap fun r =>
    match a.content? r with
    | some (_, .typeParameter name _ _) => a.identifierText? name
    | _ => none

/-- The scopes inside a node. -/
def Scopes.inside (scopes : Scopes) (a : Arena) : Payload Ref → Scopes
  | .function _ types parameters _ _ =>
    { values := bindParameters a parameters :: scopes.values
      types := ⟨∅, typeParameterNames a types⟩ :: scopes.types }
  | .block statements =>
    let names := bindBlock a statements
    { values := names :: scopes.values
      types := ⟨names.types, []⟩ :: scopes.types }
  | _ => scopes

section

variable {M : Type → Type} [Monad M] [MonadLiftT Checking M]
variable (resolve : ResolveIn M) (sources : Sources) (m : Module)

/-- `record_type_node`: records the type of a node. -/
def recordType (scopes : Scopes) (facts : Facts) (r : Ref) : M Facts :=
  match r with
  | none => return facts
  | some node => do
    let type ← resolve m (.ofFrames scopes.types) r
    return { facts with types := facts.types.insert node type }

/-- Records what there is to know about a node itself: the signature of a call and its type
arguments, the ascription of a variable or of a parameter. -/
def recordNode (scopes : Scopes) (facts : Facts) (node : NodeId) : Payload Ref → M Facts
  | .call callee types _ => do
    let signature ← callSignature sources m scopes callee
    let facts :=
      match signature with
      | some s => { facts with signatures := facts.signatures.insert node s }
      | none => facts
    (types.getD []).foldlM (recordType resolve m scopes) facts
  | .variableDeclaration _ ascription _ => recordType resolve m scopes facts ascription
  | .parameter _ ascription _ => recordType resolve m scopes facts ascription
  | _ => return facts

/-- `walk_node`: records the facts of a node, and leaves its children to `walk`, in source order. -/
def walkNode (walk : Scopes → Facts → NodeId → M Facts) (scopes : Scopes) (facts : Facts)
    (node : NodeId) : M Facts :=
  let a := m.file.arena
  match a.content? (some node) with
  | some (_, p) => do
    let facts ← recordNode resolve sources m scopes facts node p
    (a.childrenOf (some node)).foldlM (walk (scopes.inside a p)) facts
  | none => return facts

/-- The facts of the tree of a file, where `walk` goes down from a node so many levels. -/
def rootFacts (walk : (levels : Nat) → Scopes → Facts → NodeId → M Facts) : M Facts :=
  match m.file.root with
  | some root => walk m.file.arena.levels .file .empty root
  | none => return .empty

/-- The facts of some files, one after the other. -/
def factsOf (facts : Module → M Facts) : List Module → M (List (String × Facts))
  | [] => return []
  | m :: ms => do
    let own ← facts m
    let rest ← factsOf facts ms
    return (m.key, own) :: rest

end

section

variable (strict : Bool) (sources : Sources) (m : Module)

/-- Works out a type from a place in a file, where all levels are left. -/
abbrev resolveFully : Resolve := resolveType strict sources typeDepth heritageDepth

/-- Records the facts of the tree below a node, from the top. -/
def walkFile : (levels : Nat) → Scopes → Facts → NodeId → Checking Facts
  | 0, _, facts, _ => return facts
  | levels + 1, scopes, facts, node =>
    walkNode (resolveFully strict sources) sources m (walkFile levels) scopes facts node

/-- The facts of a file. -/
def fileFacts : Checking Facts := rootFacts m (walkFile strict sources m)

end

end TypeReify.Check
